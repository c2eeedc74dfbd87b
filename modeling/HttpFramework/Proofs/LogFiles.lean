import HttpFramework.Library.Rolling
import HttpFramework.Library.Transition
import HttpFramework.Proofs.LogFileNames

/-! The files that `RollFileFlush` fills. They are filled as a sequence is cut into parts, one part a
file, with `cur_size_` for the weight of the last. A file that is there already is added to. -/

namespace HttpFramework.Mylog
open Rolling Transition

namespace LogFiles

variable {disk next : LogFiles} {name other data : Bytes}

theorem mem_of_content? {content : Bytes} (there : disk.content? name = some content) : name ∈ disk.files.map Prod.fst := by
  have found : (disk.files.lookup name).isSome := Option.isSome_iff_exists.mpr ⟨content, there⟩
  obtain ⟨file, member, same⟩ := List.lookup_isSome_iff.mp found
  exact List.mem_map.mpr ⟨file, member, (eq_of_beq same).symm⟩

/-- A disk has not as many files as there are values of the counter. -/
theorem few_of_content? {names : List Bytes} (distinct : names.Nodup) (there : ∀ name ∈ names, (disk.content? name).isSome) :
    names.length + 1 < 2 ^ 64 := by
  have among : names ⊆ disk.files.map Prod.fst := by
    intro name member
    obtain ⟨content, found⟩ := Option.isSome_iff_exists.mp (there name member)
    exact mem_of_content? found
  have fewer := (List.subperm_of_subset distinct among).length_le
  have few := disk.few
  rw [List.length_map] at fewer
  omega

theorem fopen_cases (opened : disk.fopen name = some next) :
    disk.content? name = none ∧ next.files = disk.files ++ [(name, [])] ∨ disk.content? name ≠ none ∧ next = disk := by
  unfold fopen at opened
  split at opened
  next absent =>
    split at opened
    · cases opened
      exact .inl ⟨absent, rfl⟩
    · cases opened
  next present =>
    cases opened
    exact .inr ⟨present, rfl⟩

theorem content?_fopen (opened : disk.fopen name = some next) :
    next.content? name = some ((disk.content? name).getD []) ∧ ∀ other, other ≠ name → next.content? other = disk.content? other := by
  rcases fopen_cases opened with ⟨absent, longer⟩ | ⟨present, rfl⟩
  · have found (other : Bytes) : next.content? other = (disk.content? other).or (if other = name then some [] else none) := by
      rw [content?, longer, List.lookup_append, List.lookup_singleton, content?]
      simp only [beq_iff_eq]
    constructor
    · rw [found, absent, if_pos rfl]
      rfl
    · intro other different
      rw [found, if_neg different, Option.or_none]
  · obtain ⟨content, there⟩ := Option.ne_none_iff_exists'.mp present
    exact ⟨by rw [there]; rfl, fun _ _ => rfl⟩

theorem names_fopen (opened : disk.fopen name = some next) :
    next.files.map Prod.fst = disk.files.map Prod.fst ++ [name].filter fun name => (disk.content? name).isNone := by
  rcases fopen_cases opened with ⟨absent, longer⟩ | ⟨present, rfl⟩
  · simp [longer, absent]
  · simp [present]

theorem lookup_written (files : List (Bytes × Bytes)) (name other data : Bytes) :
    (files.map fun file => if file.1 = name then (file.1, file.2 ++ data) else file).lookup other =
      if other = name then (files.lookup other).map (· ++ data) else files.lookup other := by
  induction files with
  | nil => simp
  | cons file files ih =>
    obtain ⟨own, content⟩ := file
    rw [List.map_cons, List.lookup_cons]
    by_cases mine : own = name
    · subst mine
      by_cases found : other = own
      · simp [found]
      · have missed : (other == own) = false := beq_eq_false_iff_ne.mpr found
        rw [if_pos rfl, List.lookup_cons, ih]
        simp [missed, found]
    · rw [if_neg mine, List.lookup_cons, ih]
      by_cases found : other = own
      · subst found
        simp [mine]
      · have missed : (other == own) = false := beq_eq_false_iff_ne.mpr found
        simp [missed]

theorem fwrite_files (written : disk.fwrite name data = some next) :
    ∃ content, disk.content? name = some content ∧ content.length + data.length < 2 ^ 63 ∧
      next.files = disk.files.map fun file => if file.1 = name then (file.1, file.2 ++ data) else file := by
  obtain ⟨content, there, written⟩ := Option.bind_eq_some_iff.mp written
  split at written
  next room =>
    cases written
    exact ⟨content, there, room, rfl⟩
  next => cases written

theorem content?_fwrite (written : disk.fwrite name data = some next) :
    ∃ content, disk.content? name = some content ∧ content.length + data.length < 2 ^ 63 ∧
      next.content? name = some (content ++ data) ∧ ∀ other, other ≠ name → next.content? other = disk.content? other := by
  obtain ⟨content, there, room, files⟩ := fwrite_files written
  have found (other : Bytes) := lookup_written disk.files name other data
  rw [← files] at found
  refine ⟨content, there, room, ?_, fun other different => (found other).trans (if_neg different)⟩
  rw [content?, found name, if_pos rfl, show disk.files.lookup name = _ from there]
  rfl

theorem names_fwrite (written : disk.fwrite name data = some next) : next.files.map Prod.fst = disk.files.map Prod.fst := by
  obtain ⟨content, _, _, files⟩ := fwrite_files written
  rw [files, List.map_map]
  apply List.map_congr_left
  intro file _
  dsimp only [Function.comp]
  split <;> rfl

end LogFiles

namespace RollFileFlush

/-- A call of `Flush`, with what the clock shows. -/
def step (state : RollFileFlush × LogFiles) (call : Tm × Bytes) : Option (RollFileFlush × LogFiles) :=
  state.1.flush call.1 call.2 state.2

/-- The chunks by the files that they are put into. -/
abbrev chunked (maxSize : Nat) (chunks : List Bytes) : List (List Bytes) := rolled List.length maxSize chunks

theorem getElem?_concat_cases {α : Type} {items : List α} {item found : α} {index : Nat}
    (there : (items ++ [item])[index]? = some found) : items[index]? = some found ∨ index = items.length ∧ found = item := by
  by_cases inside : index < items.length
  · exact .inl (by rwa [List.getElem?_append_left inside] at there)
  · have bound := (List.getElem?_eq_some_iff.mp there).1
    rw [List.length_append, List.length_singleton] at bound
    obtain rfl : index = items.length := by omega
    rw [List.getElem?_concat_length] at there
    exact .inr ⟨rfl, (Option.some.inj there).symm⟩

/-- The names have been made with the counter from 1 on. -/
def Numbered (basename : Bytes) (names : List Bytes) : Prop :=
  ∀ index name, names[index]? = some name → ∃ t, name = fileName basename t (index + 1)

variable {older : LogFiles} {basename data name : Bytes} {maxSize : Nat} {chunks names earlier : List Bytes}
  {before : List (List Bytes)} {last : List Bytes} {state next : RollFileFlush × LogFiles} {t : Tm}

theorem Numbered.distinct (numbered : Numbered basename names) : names.Nodup := by
  rw [List.nodup_iff_getElem?_ne_getElem?]
  intro i j less inside same
  obtain ⟨t, first⟩ := numbered i _ (List.getElem?_eq_getElem (less.trans inside))
  obtain ⟨t', second⟩ := numbered j _ (List.getElem?_eq_getElem inside)
  rw [List.getElem?_eq_getElem (less.trans inside), List.getElem?_eq_getElem inside] at same
  have counters := (fileName_eq_iff basename t t' (i + 1) (j + 1)).mp (first.symm.trans ((Option.some.inj same).trans second))
  omega

theorem Numbered.fresh (numbered : Numbered basename names) (t : Tm) : fileName basename t (names.length + 1) ∉ names := by
  intro member
  obtain ⟨index, inside, same⟩ := List.getElem_of_mem member
  obtain ⟨t', named⟩ := numbered index _ (List.getElem?_eq_getElem inside)
  have counters := (fileName_eq_iff basename t' t (index + 1) (names.length + 1)).mp (named.symm.trans same)
  omega

theorem Numbered.concat (numbered : Numbered basename names) (t : Tm) :
    Numbered basename (names ++ [fileName basename t (names.length + 1)]) := by
  intro index name there
  rcases getElem?_concat_cases there with earlier | ⟨rfl, rfl⟩
  · exact numbered index name earlier
  · exact ⟨t, rfl⟩

/-- After some chunks there is a file for each part of them, behind what was in it before. -/
structure Follows (older : LogFiles) (basename : Bytes) (maxSize : Nat) (chunks names : List Bytes)
    (state : RollFileFlush × LogFiles) : Prop where
  base : state.1.basename = basename
  bound : state.1.maxSize = maxSize
  counter : state.1.cnt = names.length + 1
  numbered : Numbered basename names
  aligned : names.length = (chunked maxSize chunks).length
  current : state.1.fs = names.getLast?
  size : ∀ last, (chunked maxSize chunks).getLast? = some last → state.1.curSize = total List.length last
  filled : ∀ (index : Nat) (name : Bytes) (part : List Bytes), names[index]? = some name →
    (chunked maxSize chunks)[index]? = some part → state.2.content? name = some ((older.content? name).getD [] ++ part.flatten)
  untouched : ∀ name, name ∉ names → state.2.content? name = older.content? name
  created : state.2.files.map Prod.fst = older.files.map Prod.fst ++ names.filter fun name => (older.content? name).isNone

/-- The file is open that the next chunk goes to, behind the last of these parts. -/
structure Ready (older : LogFiles) (basename : Bytes) (maxSize : Nat) (before : List (List Bytes)) (last earlier : List Bytes)
    (name : Bytes) (state : RollFileFlush × LogFiles) : Prop where
  base : state.1.basename = basename
  bound : state.1.maxSize = maxSize
  counter : state.1.cnt = earlier.length + 2
  numbered : Numbered basename (earlier ++ [name])
  aligned : earlier.length = before.length
  current : state.1.fs = some name
  size : state.1.curSize = total List.length last
  filled : ∀ (index : Nat) (name : Bytes) (part : List Bytes), earlier[index]? = some name → before[index]? = some part →
    state.2.content? name = some ((older.content? name).getD [] ++ part.flatten)
  own : state.2.content? name = some ((older.content? name).getD [] ++ last.flatten)
  untouched : ∀ other, other ∉ earlier ++ [name] → state.2.content? other = older.content? other
  created : state.2.files.map Prod.fst =
    older.files.map Prod.fst ++ (earlier ++ [name]).filter fun name => (older.content? name).isNone

theorem follows_start (older : LogFiles) (basename : Bytes) (maxSize : Nat) :
    Follows older basename maxSize [] [] ({ maxSize, basename }, older) := by
  constructor
  case untouched => exact fun _ _ => rfl
  case size => intro last wrong; cases wrong
  case numbered => intro index name wrong; cases wrong
  case filled => intro index name part wrong; cases wrong
  case created => exact (List.append_nil _).symm
  all_goals rfl

theorem Follows.there (follows : Follows older basename maxSize chunks names state) (member : name ∈ names) :
    (state.2.content? name).isSome := by
  obtain ⟨index, inside, rfl⟩ := List.getElem_of_mem member
  have inside' : index < (chunked maxSize chunks).length := follows.aligned ▸ inside
  rw [follows.filled index _ _ (List.getElem?_eq_getElem inside) (List.getElem?_eq_getElem inside')]
  rfl

theorem Follows.opens (follows : Follows older basename maxSize chunks names state) {disk : LogFiles}
    (opened : state.2.fopen (fileName basename t (names.length + 1)) = some disk) :
    Ready older basename maxSize (chunked maxSize chunks) [] names (fileName basename t (names.length + 1))
      ({ state.1 with
        cnt := (state.1.cnt + 1) % 2 ^ 64, fs := some (fileName basename t (names.length + 1)), curSize := 0 }, disk) := by
  obtain ⟨own, others⟩ := LogFiles.content?_fopen opened
  have fresh := follows.numbered.fresh t
  have numbered := follows.numbered.concat t
  have few : (names ++ [fileName basename t (names.length + 1)]).length + 1 < 2 ^ 64 := by
    apply @LogFiles.few_of_content? disk _ numbered.distinct
    intro other member
    rcases List.mem_append.mp member with earlier | latest
    · rw [others other (by rintro rfl; exact fresh earlier)]
      exact follows.there earlier
    · rw [List.mem_singleton.mp latest, own]
      rfl
  rw [List.length_append, List.length_singleton] at few
  constructor
  case base => exact follows.base
  case bound => exact follows.bound
  case counter =>
    show (state.1.cnt + 1) % 2 ^ 64 = names.length + 2
    rw [follows.counter]
    exact Nat.mod_eq_of_lt few
  case numbered => exact numbered
  case aligned => exact follows.aligned
  case current => rfl
  case size => rfl
  case filled =>
    intro index name part named there
    have different : name ≠ fileName basename t (names.length + 1) := by
      rintro rfl
      exact fresh (List.mem_of_getElem? named)
    exact (others name different).trans (follows.filled index name part named there)
  case own => rw [own, follows.untouched _ fresh, List.flatten_nil, List.append_nil]
  case untouched =>
    intro other outside
    rw [List.mem_append, List.mem_singleton, not_or] at outside
    exact (others other outside.2).trans (follows.untouched other outside.1)
  case created =>
    rw [LogFiles.names_fopen opened, follows.created, List.filter_append, List.append_assoc,
      List.filter_singleton, List.filter_singleton, follows.untouched _ fresh]

/-- The file that is open is not full yet. -/
theorem Follows.stays (follows : Follows older basename maxSize chunks (earlier ++ [name]) state)
    (parts : chunked maxSize chunks = before ++ [last]) : Ready older basename maxSize before last earlier name state := by
  have aligned := follows.aligned
  rw [parts, List.length_append, List.length_append, List.length_singleton, List.length_singleton,
    Nat.add_right_cancel_iff] at aligned
  constructor
  case base => exact follows.base
  case bound => exact follows.bound
  case counter => exact follows.counter.trans (by rw [List.length_append]; rfl)
  case numbered => exact follows.numbered
  case aligned => exact aligned
  case current => exact follows.current.trans List.getLast?_concat
  case size => exact follows.size last (by rw [parts, List.getLast?_concat])
  case filled =>
    intro index name' part named there
    have inside := (List.getElem?_eq_some_iff.mp named).1
    have inside' := (List.getElem?_eq_some_iff.mp there).1
    apply follows.filled index name' part
    · rwa [List.getElem?_append_left inside]
    · rwa [parts, List.getElem?_append_left inside']
  case own =>
    apply follows.filled earlier.length name last List.getElem?_concat_length
    rw [parts, aligned, List.getElem?_concat_length]
  case untouched => exact follows.untouched
  case created => exact follows.created

/-- The chunk goes to another file if the last part has reached the limit. -/
theorem Follows.ready (follows : Follows older basename maxSize chunks names state)
    (opened : state.1.initLogFile t state.2 = some next) (data : Bytes) :
    ∃ before last earlier name, Ready older basename maxSize before last earlier name next ∧
      chunked maxSize (chunks ++ [data]) = before ++ [last ++ [data]] := by
  rw [initLogFile] at opened
  split at opened
  next due =>
    obtain ⟨disk, made, same⟩ := Option.bind_eq_some_iff.mp opened
    cases same
    have named : fileName state.1.basename t state.1.cnt = fileName basename t (names.length + 1) := by
      rw [follows.base, follows.counter]
    dsimp only [createFilename] at made ⊢
    rw [named] at made ⊢
    refine ⟨chunked maxSize chunks, [], names, fileName basename t (names.length + 1), follows.opens made, ?_⟩
    rw [chunked, rolled_concat]
    apply roll_fresh
    intro last found
    rcases due with unopened | reached
    · have aligned := follows.aligned
      rw [List.getLast?_eq_none_iff.mp (follows.current.symm.trans unopened)] at aligned
      have parts : rolled List.length maxSize chunks = [] := List.eq_nil_of_length_eq_zero aligned.symm
      rw [parts] at found
      cases found
    · rwa [follows.size last found, follows.bound] at reached
  next stays =>
    cases opened
    obtain ⟨opened, light⟩ := not_or.mp stays
    have aligned := follows.aligned
    cases names using List.reverseRecOn with
    | nil => exact absurd follows.current opened
    | append_singleton earlier name =>
      cases parts : chunked maxSize chunks using List.reverseRecOn with
      | nil =>
        rw [parts, List.length_append] at aligned
        cases aligned
      | append_singleton before last =>
        refine ⟨before, last, earlier, name, follows.stays parts, ?_⟩
        rw [follows.size last (by rw [parts, List.getLast?_concat]), follows.bound] at light
        rw [chunked, rolled_concat, show rolled List.length maxSize chunks = before ++ [last] from parts]
        exact roll_light (Nat.not_le.mp light) data

theorem Ready.write (ready : Ready older basename maxSize before last earlier name state)
    (cut : chunked maxSize (chunks ++ [data]) = before ++ [last ++ [data]]) {disk : LogFiles}
    (written : state.2.fwrite name data = some disk) :
    Follows older basename maxSize (chunks ++ [data]) (earlier ++ [name])
      ({ state.1 with curSize := (state.1.curSize + data.length) % 2 ^ 64 }, disk) := by
  obtain ⟨content, there, room, own, others⟩ := LogFiles.content?_fwrite written
  obtain rfl := Option.some.inj (there.symm.trans ready.own)
  have fresh : name ∉ earlier := (List.nodup_concat _ _).mp (List.concat_eq_append .. ▸ ready.numbered.distinct) |>.1
  constructor
  case base => exact ready.base
  case bound => exact ready.bound
  case counter => exact ready.counter.trans (by rw [List.length_append]; rfl)
  case numbered => exact ready.numbered
  case aligned => rw [cut, List.length_append, List.length_append, ready.aligned]; rfl
  case current => exact ready.current.trans List.getLast?_concat.symm
  case size =>
    intro part found
    rw [cut, List.getLast?_concat] at found
    cases found
    rw [List.length_append, List.length_flatten] at room
    show (state.1.curSize + data.length) % 2 ^ 64 = _
    rw [ready.size, Nat.mod_eq_of_lt (by rw [total]; omega)]
    simp [total]
  case filled =>
    intro index other part named found
    rw [cut] at found
    rcases getElem?_concat_cases named with sooner | ⟨rfl, rfl⟩
    · have inside := (List.getElem?_eq_some_iff.mp sooner).1
      rw [List.getElem?_append_left (ready.aligned ▸ inside)] at found
      have different : other ≠ name := by
        rintro rfl
        exact fresh (List.mem_of_getElem? sooner)
      exact (others other different).trans (ready.filled index other part sooner found)
    · rw [ready.aligned, List.getElem?_concat_length] at found
      cases found
      simp [own]
  case untouched =>
    intro other outside
    have different : other ≠ name := by
      rintro rfl
      exact outside (List.mem_append_right _ (List.mem_singleton_self _))
    exact (others other different).trans (ready.untouched other outside)
  case created => exact (LogFiles.names_fwrite written).trans ready.created

theorem Follows.flush {call : Tm × Bytes} (follows : Follows older basename maxSize chunks names state)
    (taken : step state call = some next) : ∃ names', Follows older basename maxSize (chunks ++ [call.2]) names' next := by
  obtain ⟨⟨roll, disk⟩, opened, taken⟩ := Option.bind_eq_some_iff.mp taken
  obtain ⟨before, last, earlier, name, ready, cut⟩ := follows.ready opened call.2
  obtain ⟨name', there, taken⟩ := Option.bind_eq_some_iff.mp taken
  obtain rfl : name = name' := Option.some.inj (ready.current.symm.trans there)
  obtain ⟨disk', written, same⟩ := Option.bind_eq_some_iff.mp taken
  cases same
  exact ⟨earlier ++ [name], ready.write cut written⟩

theorem Follows.run {calls : List (Tm × Bytes)} (follows : Follows older basename maxSize chunks names state)
    (ran : Run step state calls next) :
    ∃ names', Follows older basename maxSize (chunks ++ calls.map Prod.snd) names' next := by
  induction ran generalizing chunks names with
  | nil => exact ⟨names, by rwa [List.map_nil, List.append_nil]⟩
  | cons taken rest ih =>
    obtain ⟨names', follows⟩ := follows.flush taken
    obtain ⟨names'', follows⟩ := ih follows
    exact ⟨names'', by rwa [List.append_assoc] at follows⟩

/-- Each part of the data stands in the file of its own, behind what was in it before. The files
that were not there before have been created in order. -/
structure Filled (older disk : LogFiles) (names : List Bytes) (parts : List (List Bytes)) : Prop where
  distinct : names.Nodup
  aligned : names.length = parts.length
  content : ∀ (index : Nat) (name : Bytes) (part : List Bytes), names[index]? = some name → parts[index]? = some part →
    disk.content? name = some ((older.content? name).getD [] ++ part.flatten)
  untouched : ∀ name, name ∉ names → disk.content? name = older.content? name
  created : disk.files.map Prod.fst = older.files.map Prod.fst ++ names.filter fun name => (older.content? name).isNone

theorem total_length (part : List Bytes) : total List.length part = part.flatten.length := List.length_flatten.symm

/-- In a directory without these files, what is in them is the data. -/
theorem Filled.contents {disk : LogFiles} {parts : List (List Bytes)} (filled : Filled older disk names parts)
    (absent : ∀ name ∈ names, older.content? name = none) :
    names.flatMap (fun name => (disk.content? name).getD []) = parts.flatten.flatten := by
  have each : names.map (fun name => (disk.content? name).getD []) = parts.map List.flatten := by
    apply List.ext_getElem
    · simp [filled.aligned]
    · intro index inside inside'
      rw [List.length_map] at inside inside'
      have content := filled.content index _ _ (List.getElem?_eq_getElem inside) (List.getElem?_eq_getElem inside')
      rw [List.getElem_map, List.getElem_map, content, absent _ (List.getElem_mem inside)]
      rfl
  rw [List.flatMap_def, each, List.flatten_flatten]

theorem flush_files {calls : List (Tm × Bytes)} (positive : 0 < maxSize) (ran : Run step ({ maxSize, basename }, older) calls state) :
    ∃ names parts, Filled older state.2 names parts ∧ state.1.fs = names.getLast? ∧ parts.flatten = calls.map Prod.snd ∧
      ((∀ name ∈ names, older.content? name = none) →
        names.flatMap (fun name => (state.2.content? name).getD []) = calls.flatMap Prod.snd) ∧
      (∀ part ∈ parts.dropLast, maxSize ≤ part.flatten.length) ∧
      (∀ part ∈ parts, part ≠ [] ∧ part.dropLast.flatten.length < maxSize) := by
  obtain ⟨names, follows⟩ := (follows_start older basename maxSize).run ran
  rw [List.nil_append] at follows
  have parts : (chunked maxSize (calls.map Prod.snd)).flatten = calls.map Prod.snd := flatten_rolled _
  obtain ⟨full, tight⟩ : Cut List.length maxSize (chunked maxSize (calls.map Prod.snd)) := cut_rolled positive _
  have filled : Filled older state.2 names (chunked maxSize (calls.map Prod.snd)) :=
    ⟨follows.numbered.distinct, follows.aligned, follows.filled, follows.untouched, follows.created⟩
  refine ⟨names, chunked maxSize (calls.map Prod.snd), filled, follows.current, parts, fun absent => ?_, fun part member => ?_,
    fun part member => ?_⟩
  · rw [filled.contents absent, parts, List.flatMap_def]
  · rw [← total_length]
    exact full part member
  · rw [← total_length]
    exact tight part member

/-- The second file holds a chunk with nothing in it besides the last. -/
theorem flush_files_sample : ∃ (calls : List (Tm × Bytes)) (state : RollFileFlush × LogFiles),
    calls.map Prod.snd = [ascii "ab", ascii "cde", [], ascii "f"] ∧
    Run step ({ maxSize := 3, basename := ascii "log" }, {}) calls state ∧
    state.2.files.map Prod.snd = [ascii "abcde", ascii "f"] ∧
    ∃ names parts, Filled {} state.2 names parts ∧ state.1.fs = names.getLast? ∧ parts.flatten = calls.map Prod.snd ∧
      ((∀ name ∈ names, LogFiles.content? name {} = none) →
        names.flatMap (fun name => (state.2.content? name).getD []) = calls.flatMap Prod.snd) ∧
      (∀ part ∈ parts.dropLast, 3 ≤ part.flatten.length) ∧
      (∀ part ∈ parts, part ≠ [] ∧ part.dropLast.flatten.length < 3) := by
  let noon : Tm := ⟨2024, 0, 11, 12, 0, 0⟩
  obtain ⟨state, ran, checked⟩ := run_of_check
    (show ([(noon, ascii "ab"), (noon, ascii "cde"), (noon, []), (noon, ascii "f")].foldlM step
      ({ maxSize := 3, basename := ascii "log" }, {})).any fun state =>
        state.2.files.map Prod.snd = [ascii "abcde", ascii "f"] by decide)
  exact ⟨_, state, rfl, ran, of_decide_eq_true checked, flush_files (by decide) ran⟩

end RollFileFlush

end HttpFramework.Mylog
