import HttpFramework.Client.Storage
import HttpFramework.Library.Transition
import HttpFramework.Proofs.DiskFiles
import HttpFramework.Proofs.RequestFormat

/-! The file of the client's table, which separates its fields by spaces and its lines by newlines
and escapes neither. -/

namespace HttpFramework.Client
open Storage Transition

section Split

variable {sep c : UInt8} {field piece text rest body : Bytes}

theorem splitFrom_cons : splitFrom [sep] field (c :: rest) =
    if c = sep then field :: splitFrom [sep] [] rest else splitFrom [sep] (field ++ [c]) rest := by
  rw [splitFrom]
  by_cases same : c = sep
  · rw [if_pos same, if_pos (by simp [same])]
  · rw [if_neg same, if_neg (by simpa [eq_comm] using same)]

/-- A field ends at the separator. -/
theorem splitFrom_append (absent : sep ∉ text) :
    splitFrom [sep] field (text ++ sep :: rest) = (field ++ text) :: splitFrom [sep] [] rest := by
  induction text generalizing field with
  | nil => rw [List.nil_append, splitFrom_cons, if_pos rfl, List.append_nil]
  | cons c text ih =>
    rw [List.cons_append, splitFrom_cons, if_neg (List.ne_of_not_mem_cons absent).symm,
      ih (List.not_mem_of_not_mem_cons absent), List.append_assoc]
    rfl

/-- The last field ends with the text. -/
theorem splitFrom_last (absent : sep ∉ text) (some : field ++ text ≠ []) : splitFrom [sep] field text = [field ++ text] := by
  induction text generalizing field with
  | nil =>
    rw [List.append_nil] at some ⊢
    rw [splitFrom, if_neg some]
  | cons c text ih =>
    rw [splitFrom_cons, if_neg (List.ne_of_not_mem_cons absent).symm,
      ih (List.not_mem_of_not_mem_cons absent) (by simp), List.append_assoc]
    rfl

/-- A field has no separator and only bytes of the text. -/
theorem mem_splitFrom (member : piece ∈ splitFrom [sep] field body) (clean : sep ∉ field) :
    sep ∉ piece ∧ ∀ b ∈ piece, b ∈ field ∨ b ∈ body := by
  induction body generalizing field with
  | nil =>
    rw [splitFrom] at member
    split at member
    · cases member
    · cases List.mem_singleton.mp member
      exact ⟨clean, fun b inside => .inl inside⟩
  | cons c body ih =>
    rw [splitFrom_cons] at member
    split at member
    · rcases List.mem_cons.mp member with rfl | later
      · exact ⟨clean, fun b inside => .inl inside⟩
      · obtain ⟨free, from'⟩ := ih later (List.not_mem_nil)
        refine ⟨free, fun b inside => .inr ?_⟩
        exact List.mem_cons_of_mem c ((from' b inside).resolve_left (List.not_mem_nil))
    · next different =>
      have clean' : sep ∉ field ++ [c] := by simp [clean, Ne.symm different]
      obtain ⟨free, from'⟩ := ih member clean'
      refine ⟨free, fun b inside => ?_⟩
      rcases from' b inside with early | later
      · rcases List.mem_append.mp early with early | own
        · exact .inl early
        · exact .inr (List.mem_singleton.mp own ▸ List.mem_cons_self)
      · exact .inr (List.mem_cons_of_mem c later)

end Split

/-- A path that the file of the table can hold. -/
def Plain (key : Bytes) : Prop := chr ' ' ∉ key ∧ chr '\n' ∉ key

/-- Every value is an identifier of its key. -/
def Identifies (table : Dict) : Prop := ∀ key val, table[key]? = some val → ∃ size mtime, val = identifier key size mtime

theorem digit_of_decimalInt {n : Int} {c : UInt8} (member : c ∈ decimalInt n) : c = chr '-' ∨ isdigit c = true := by
  rw [decimalInt] at member
  split at member
  · rcases List.mem_cons.mp member with sign | digit
    · exact .inl sign
    · exact .inr ((Http.isLength_decimal _).digits c digit)
  · exact .inr ((Http.isLength_decimal _).digits c member)

theorem not_mem_identifier {key : Bytes} {c : UInt8} (size : Nat) (mtime : Int) (absent : c ∉ key) (sign : c ≠ chr '-')
    (digit : isdigit c = false) : c ∉ identifier key size mtime := by
  intro member
  have dash : ascii "-" = [chr '-'] := rfl
  simp only [identifier, dash, List.mem_append, List.mem_singleton] at member
  rcases member with (((name | separator) | size) | separator) | mtime
  · exact absent ((List.rtakeWhile_suffix _ _).subset name)
  · exact sign separator
  · rw [(Http.isLength_decimal _).digits c size] at digit
    cases digit
  · exact sign separator
  · rcases digit_of_decimalInt mtime with separator | number
    · exact sign separator
    · rw [number] at digit
      cases digit

theorem Plain.identifier {key : Bytes} (plain : Plain key) (size : Nat) (mtime : Int) :
    Plain (Client.identifier key size mtime) :=
  ⟨not_mem_identifier size mtime plain.1 (by decide) (by decide), not_mem_identifier size mtime plain.2 (by decide) (by decide)⟩

theorem identifier_ne_nil (key : Bytes) (size : Nat) (mtime : Int) : identifier key size mtime ≠ [] := by
  simp [identifier, ascii]

theorem loadLine_plain {table : Dict} {key val : Bytes} (keyPlain : Plain key) (valPlain : Plain val) (some : val ≠ []) :
    loadLine table (key ++ ascii " " ++ val) = .some (table.insert key val) := by
  have fields : split (key ++ ascii " " ++ val) (ascii " ") = [key, val] := by
    rw [List.append_assoc]
    show splitFrom [chr ' '] [] (key ++ chr ' ' :: val) = _
    rw [splitFrom_append keyPlain.1, @splitFrom_last _ [] val valPlain.1 some]
    rfl
  rw [loadLine, fields]

/-- A file of plain entries is read entry by entry. -/
theorem load_plain {entries : List (Bytes × Bytes)} {table : Dict}
    (plain : ∀ entry ∈ entries, Plain entry.1 ∧ Plain entry.2 ∧ entry.2 ≠ []) :
    (split (entries.flatMap lineOf) (ascii "\n")).foldlM loadLine table = some (table.insertMany entries) := by
  induction entries generalizing table with
  | nil =>
    rw [Std.ExtTreeMap.insertMany_nil]
    rfl
  | cons entry entries ih =>
    obtain ⟨keyPlain, valPlain, nonempty⟩ := plain entry List.mem_cons_self
    have unbroken : chr '\n' ∉ entry.1 ++ ascii " " ++ entry.2 := by
      have space : chr '\n' ∉ ascii " " := by decide
      simp [keyPlain.2, valPlain.2, space]
    have lines : split ((entry :: entries).flatMap lineOf) (ascii "\n") =
        (entry.1 ++ ascii " " ++ entry.2) :: split (entries.flatMap lineOf) (ascii "\n") := by
      rw [List.flatMap_cons, lineOf, List.append_assoc]
      show splitFrom [chr '\n'] [] ((entry.1 ++ ascii " " ++ entry.2) ++ chr '\n' :: entries.flatMap lineOf) = _
      rw [splitFrom_append unbroken]
      rfl
    rw [lines, List.foldlM_cons, loadLine_plain keyPlain valPlain nonempty]
    show List.foldlM loadLine (table.insert entry.1 entry.2) _ = _
    rw [ih (fun other member => plain other (List.mem_cons_of_mem entry member)), Std.ExtTreeMap.insertMany_cons]

/-- Whatever stands in the file, what is loaded has plain keys. -/
theorem plain_of_load {lines : List Bytes} {table loaded : Dict} (unbroken : ∀ line ∈ lines, chr '\n' ∉ line)
    (plain : ∀ key ∈ table, Plain key) (done : lines.foldlM loadLine table = some loaded) : ∀ key ∈ loaded, Plain key := by
  induction lines generalizing table with
  | nil =>
    cases done
    exact plain
  | cons line lines ih =>
    rw [List.foldlM_cons] at done
    obtain ⟨next, taken, rest⟩ := Option.bind_eq_some_iff.mp done
    refine ih (fun other member => unbroken other (List.mem_cons_of_mem line member)) ?_ rest
    rw [loadLine] at taken
    split at taken
    · next key value more fields =>
      cases taken
      have first : key ∈ splitFrom [chr ' '] [] line := by
        show key ∈ split line (ascii " ")
        rw [fields]
        exact List.mem_cons_self
      obtain ⟨spaceless, inside⟩ := mem_splitFrom first List.not_mem_nil
      intro other member
      rcases Std.ExtTreeMap.mem_insert.mp member with same | old
      · rw [← Std.LawfulEqCmp.eq_of_compare same]
        refine ⟨spaceless, fun newline => ?_⟩
        exact unbroken line List.mem_cons_self ((inside _ newline).resolve_left List.not_mem_nil)
      · exact plain other old
    · cases taken

theorem getContent_of_holds {disk : Disk} {path content : Bytes} {place : Place} (holds : disk.Holds path place content)
    (small : content.length ≤ stringMaxSize) : FileUtil.getContent disk path [] = .ok (true, content) := by
  have size : toSizeT (content.length : Int) = content.length := by
    simp only [toSizeT, stringMaxSize] at small ⊢
    omega
  simp [FileUtil.getContent, FileUtil.getPosLen, holds.fileSize, size, holds.openRead, Nat.not_lt.mpr small, Nat.mod_le, copyTo]

namespace DataManager

variable {manager final : DataManager} {disk after : Disk} {place : Place} {file : Bytes}

theorem initLoad_of_holds {content : Bytes} (holds : disk.Holds manager.storageFile place content)
    (small : content.length ≤ stringMaxSize) :
    manager.initLoad disk =
      .ok (((split content (ascii "\n")).foldlM loadLine manager.table).map fun table => { manager with table }) := by
  simp [initLoad, holds.exists?, getContent_of_holds holds small, bind, Except.bind, pure, Except.pure]

/-- A call of `Insert` or `Update`, with the identifier of a file of some size and time. -/
structure Call where
  update : Bool := false
  key : Bytes
  size : Nat
  mtime : Int
  hashing : Hashing

def step (state : DataManager × Disk) (call : Call) : Option (DataManager × Disk) :=
  let val := identifier call.key call.size call.mtime
  some (if call.update then state.1.update call.hashing call.key val state.2
    else state.1.insert call.hashing call.key val state.2)

structure Kept (file : Bytes) (place : Place) (state : DataManager × Disk) : Prop where
  named : state.1.storageFile = file
  identifies : Identifies state.1.table
  usable : state.2.Usable file place

/-- What holds of the table and its file after a call. -/
structure Saved (file : Bytes) (place : Place) (state : DataManager × Disk) : Prop extends Kept file place state where
  written : ∃ entries : List (Bytes × Bytes), entries.Perm state.1.table.toList ∧
    state.2.Holds file place (entries.flatMap lineOf)

theorem identifies_insert {table : Dict} (identifies : Identifies table) (key : Bytes) (size : Nat) (mtime : Int) :
    Identifies (table.insert key (identifier key size mtime)) := by
  intro other val found
  rw [Std.ExtTreeMap.getElem?_insert] at found
  split at found
  · next same =>
    cases Std.LawfulEqCmp.eq_of_compare same
    cases found
    exact ⟨size, mtime, rfl⟩
  · exact identifies other val found

theorem Kept.insert {state : DataManager × Disk} (kept : Kept file place state) (hashing : Hashing) (key : Bytes)
    (size : Nat) (mtime : Int) :
    Saved file place (state.1.insert hashing key (identifier key size mtime) state.2) := by
  let table := state.1.table.insert key (identifier key size mtime)
  obtain ⟨changed, written, holds, usable⟩ := kept.usable.write ((hashing.order table).flatMap lineOf)
  have stored : (state.1.insert hashing key (identifier key size mtime) state.2).2 = changed := by
    show (FileUtil.setContent state.2 state.1.storageFile ((hashing.order table).flatMap lineOf)).2 = changed
    simp only [FileUtil.setContent, kept.named, written]
  refine ⟨⟨kept.named, identifies_insert kept.identifies key size mtime, ?_⟩, hashing.order table, hashing.perm table, ?_⟩
  · rw [stored]
    exact usable
  · rw [stored]
    exact holds

theorem Kept.step {state next : DataManager × Disk} {call : Call} (kept : Kept file place state)
    (taken : step state call = some next) : Saved file place next := by
  simp only [DataManager.step, update, ite_self, Option.some.injEq] at taken
  rw [← taken]
  exact kept.insert _ _ _ _

theorem saved_of_run {calls : List Call} (usable : disk.Usable file place)
    (ran : Run step ({ storageFile := file }, disk) calls (final, after)) (called : calls ≠ []) :
    Saved file place (final, after) := by
  have start : Kept file place ({ storageFile := file }, disk) := by
    refine ⟨rfl, fun key val found => ?_, usable⟩
    change (∅ : Dict)[key]? = _ at found
    rw [Std.ExtTreeMap.getElem?_empty] at found
    cases found
  cases ran with
  | nil => exact absurd rfl called
  | cons taken rest => exact rest.invariant (fun _ _ _ saved taken => saved.toKept.step taken) (start.step taken)

theorem initLoad_of_saved (saved : Saved file place (final, after))
    (small : (final.table.toList.flatMap lineOf).length ≤ stringMaxSize) :
    ∃ entries : List (Bytes × Bytes), entries.Perm final.table.toList ∧
      ({ storageFile := file } : DataManager).initLoad after =
        .ok (((split (entries.flatMap lineOf) (ascii "\n")).foldlM loadLine ∅).map fun table => ⟨file, table⟩) := by
  obtain ⟨entries, perm, holds⟩ := saved.written
  refine ⟨entries, perm, @initLoad_of_holds { storageFile := file } _ _ _ holds ?_⟩
  rw [(perm.flatMap_right lineOf).length_eq]
  exact small

/-- What comes back from a file has plain keys. -/
theorem plain_of_initLoad {loaded : DataManager} (saved : Saved file place (final, after))
    (small : (final.table.toList.flatMap lineOf).length ≤ stringMaxSize)
    (done : ({ storageFile := file } : DataManager).initLoad after = .ok (some loaded)) : ∀ key ∈ loaded.table, Plain key := by
  obtain ⟨entries, _, loads⟩ := initLoad_of_saved saved small
  rw [loads] at done
  obtain ⟨table, read, rfl⟩ := Option.map_eq_some_iff.mp (Except.ok.inj done)
  refine plain_of_load (fun line member => ?_) (fun key member => ?_) read
  · exact (mem_splitFrom member List.not_mem_nil).1
  · exact absurd member Std.ExtTreeMap.not_mem_empty

/-- The table comes back from its file exactly when no path in it has a space or a newline. -/
theorem reloads_table_iff {calls : List Call} (usable : disk.Usable file place)
    (ran : Run step ({ storageFile := file }, disk) calls (final, after)) (called : calls ≠ [])
    (small : (final.table.toList.flatMap lineOf).length ≤ stringMaxSize) :
    ({ storageFile := file } : DataManager).initLoad after = .ok (some final) ↔ ∀ key ∈ final.table, Plain key := by
  have saved := saved_of_run usable ran called
  refine ⟨plain_of_initLoad saved small, fun plain => ?_⟩
  obtain ⟨entries, perm, loads⟩ := initLoad_of_saved saved small
  have fields : ∀ entry ∈ entries, Plain entry.1 ∧ Plain entry.2 ∧ entry.2 ≠ [] := by
    intro entry member
    have found := Std.ExtTreeMap.mem_toList_iff_getElem?_eq_some.mp (perm.mem_iff.mp member)
    obtain ⟨size, mtime, same⟩ := saved.identifies _ _ found
    have keyPlain := plain entry.1 (Std.ExtTreeMap.mem_iff_isSome_getElem?.mpr (by rw [found]; rfl))
    rw [same]
    exact ⟨keyPlain, keyPlain.identifier size mtime, identifier_ne_nil _ _ _⟩
  rw [loads, load_plain fields, Http.insertMany_order perm]
  show Except.ok (some (⟨file, final.table⟩ : DataManager)) = _
  rw [← saved.named]

def inserted (key : Bytes) : Call := { key, size := 3, mtime := 7, hashing := ⟨fun table => table.toList, fun _ => .refl _⟩ }

/-- The state of a new client after one upload has been recorded. -/
def recorded (key : Bytes) : DataManager × Disk :=
  ({ storageFile := ascii "./storage.dat" } : DataManager).insert (inserted key).hashing key (identifier key 3 7)
    (.fresh [ascii "home"])

private theorem usable_home : (Disk.fresh [ascii "home"]).Usable (ascii "./storage.dat") [ascii "home", ascii "storage.dat"] :=
  ⟨rfl, rfl, .inr ⟨rfl, rfl⟩⟩

private theorem run_recorded (key : Bytes) :
    Run step ({ storageFile := ascii "./storage.dat" }, .fresh [ascii "home"]) [inserted key] (recorded key) :=
  .cons rfl (.nil _)

private theorem small_recorded : ((recorded (ascii "./low_storage/f")).1.table.toList.flatMap lineOf).length ≤ stringMaxSize := by
  decide

theorem reloads_table_plain :
    ({ storageFile := ascii "./storage.dat" } : DataManager).initLoad (recorded (ascii "./low_storage/f")).2 =
      .ok (some (recorded (ascii "./low_storage/f")).1) := by
  refine (reloads_table_iff usable_home (run_recorded _) nofun small_recorded).mpr ?_
  intro key member
  have same : key = ascii "./low_storage/f" := by
    rcases Std.ExtTreeMap.mem_insert.mp member with same | old
    · exact (Std.LawfulEqCmp.eq_of_compare same).symm
    · exact absurd old Std.ExtTreeMap.not_mem_empty
  subst same
  exact ⟨by decide, by decide⟩

/-- A space in a name makes another entry of it, and a newline makes a line with one field. -/
theorem separators_in_names :
    (∀ key, Run step ({ storageFile := ascii "./storage.dat" }, .fresh [ascii "home"]) [inserted key] (recorded key)) ∧
    (∃ loaded, ({ storageFile := ascii "./storage.dat" } : DataManager).initLoad (recorded (ascii "./low_storage/my file")).2 =
        .ok (some loaded) ∧ loaded.table[ascii "./low_storage/my"]? = some (ascii "file") ∧
      loaded ≠ (recorded (ascii "./low_storage/my file")).1) ∧
    ({ storageFile := ascii "./storage.dat" } : DataManager).initLoad (recorded (ascii "./low_storage/a\nb")).2 = .ok none := by
  refine ⟨run_recorded, ⟨⟨ascii "./storage.dat", (∅ : Dict).insert (ascii "./low_storage/my") (ascii "file")⟩, rfl, by decide, ?_⟩, rfl⟩
  intro same
  have other : ((recorded (ascii "./low_storage/my file")).1.table[ascii "./low_storage/my"]?) = some (ascii "file") := by
    rw [← same]
    decide
  exact absurd other (by decide)

end DataManager

end HttpFramework.Client
