import HttpFramework.Code.UserTable

/-! Whether a user who has been told that the registration succeeded can log in. `UserVerify` says
so whatever becomes of the INSERT, puts the texts into its statements as they are, and lets
`snprintf` cut the statements. -/

namespace HttpFramework.Code.HttpRequest

variable {Db : Type}

/-- A text that a string of SQL holds as it is, with as many characters as bytes. -/
def PlainText (text : Bytes) : Prop := ∀ c ∈ text, c < 128 ∧ c ≠ 39 ∧ c ≠ 92

def Unblanked (text : Bytes) : Prop := text.getLast? ≠ some (chr ' ')

instance (text : Bytes) : Decidable (PlainText text) := List.decidableBAll (fun c => c < 128 ∧ c ≠ 39 ∧ c ≠ 92) text
instance (text : Bytes) : Decidable (Unblanked text) := inferInstanceAs (Decidable (_ ≠ _))

/-- A column of the type `CHAR` gives its value back without blanks at the end. -/
def unpadded (text : Bytes) : Bytes := text.rdropWhile (· == chr ' ')

/-- The rows for a name. -/
def found (users : Db → List (Bytes × Option Bytes)) (sameName : Bytes → Bytes → Bool) (db : Db) (name : Bytes) :
    List (Option Bytes) := ((users db).filter fun user => sameName user.1 name).map Prod.snd

/-- What MySQL does with the two statements, on a table with two columns of the type `CHAR(50)` and
no key, in its strict mode. Of two names the collation tells whether they are the same. -/
structure Lawful (mysql : Mysql Db) (users : Db → List (Bytes × Option Bytes)) (sameName : Bytes → Bytes → Bool) : Prop where
  same : ∀ name, sameName name name = true
  select : ∀ db name, PlainText name → Unblanked name → ∀ tail, tail = [] ∨ tail = ascii " " →
    mysql.execute db (selectFront ++ name ++ 39 :: tail) = some (some (found users sameName db name), db)
  selectLimit : ∀ db name, PlainText name → Unblanked name →
    mysql.execute db (selectFront ++ name ++ ascii "' LIMIT 1") = some (some ((found users sameName db name).take 1), db)
  /-- The keyword is cut, or its number is missing. -/
  selectTail : ∀ db name, PlainText name → ∀ length, 2 ≤ length → length ≤ 7 →
    mysql.execute db (selectFront ++ name ++ 39 :: (ascii " LIMIT 1").take length) = none
  unterminated : ∀ db name, PlainText name → mysql.execute db (selectFront ++ name) = none
  insert : ∀ db name pwd, PlainText name → Unblanked name → PlainText pwd → name.length ≤ 50 → pwd.length ≤ 50 →
    ∃ rows next, mysql.execute db (insertText name pwd) = some (rows, next) ∧
      users next = users db ++ [(name, some (unpadded pwd))]
  /-- A value is too long for its column, whether the statement is whole or not. -/
  tooLong : ∀ db name pwd, PlainText name → PlainText pwd → 50 < name.length ∨ 50 < pwd.length →
    ∀ length, mysql.execute db ((insertText name pwd).take length) = none

/-- The SELECT is whole, or cut where it may end. -/
def Selectable (name : Bytes) : Prop := name.length ≤ 194 ∨ name.length = 201 ∨ name.length = 202

/-- A user whose registration has succeeded can log in with the next query that succeeds. -/
def LoginFollows (mysql : Mysql Db) (selectFails insertFails : Bool) (name pwd : Bytes) (db : Db) : Prop :=
  ∀ registered, userVerify mysql selectFails insertFails name pwd false db = some (true, registered) →
    (mysqlQuery mysql false registered (selectOrder name)).isSome →
    ∃ next, userVerify mysql false false name pwd true registered = some (true, next)

section
variable {mysql : Mysql Db} {users : Db → List (Bytes × Option Bytes)} {sameName : Bytes → Bytes → Bool}
  {selectFails insertFails : Bool} {name pwd : Bytes} {db registered : Db}

theorem PlainText.take {text : Bytes} (plain : PlainText text) (length : Nat) : PlainText (text.take length) :=
  fun c member => plain c (List.mem_of_mem_take member)

theorem selectFront_length : selectFront.length = 52 := by decide

theorem selectOrder_short (short : (cString name).length ≤ 194) :
    selectOrder name = selectFront ++ cString name ++ ascii "' LIMIT 1" := by
  apply List.take_of_length_le
  have tail : (ascii "' LIMIT 1").length = 9 := rfl
  rw [List.length_append, List.length_append, selectFront_length]
  omega

theorem selectOrder_middle (long : (cString name).length ≤ 202) :
    selectOrder name = selectFront ++ cString name ++ 39 :: (ascii " LIMIT 1").take (202 - (cString name).length) := by
  have length : (selectFront ++ cString name).length = 52 + (cString name).length := by
    rw [List.length_append, selectFront_length]
  have quoted : ascii "' LIMIT 1" = 39 :: ascii " LIMIT 1" := rfl
  have left : 255 - (selectFront ++ cString name).length = 202 - (cString name).length + 1 := by omega
  rw [selectOrder, List.take_append, List.take_of_length_le (by omega), left, quoted, List.take_succ_cons]

theorem selectOrder_long (long : 203 ≤ (cString name).length) :
    selectOrder name = selectFront ++ (cString name).take 203 := by
  have length : (selectFront ++ cString name).length = 52 + (cString name).length := by
    rw [List.length_append, selectFront_length]
  have front := selectFront_length
  rw [selectOrder, List.take_append_of_le_length (by omega), List.take_append, List.take_of_length_le (by omega), front]

/-- The SELECT for a plain name brings the rows of the name, or the first of them, or is refused. -/
theorem Lawful.select_iff (lawful : Lawful mysql users sameName) (plain : PlainText (cString name))
    (unblanked : Unblanked (cString name)) (db : Db) :
    (Selectable (cString name) → ∃ rows, mysql.execute db (selectOrder name) = some (some rows, db) ∧
      (rows = found users sameName db (cString name) ∨ rows = (found users sameName db (cString name)).take 1)) ∧
    (¬ Selectable (cString name) → mysql.execute db (selectOrder name) = none) := by
  rw [Selectable]
  rcases le_or_gt (cString name).length 194 with short | more
  · rw [selectOrder_short short]
    exact ⟨fun _ => ⟨_, lawful.selectLimit db _ plain unblanked, .inr rfl⟩, fun not => absurd (.inl short) not⟩
  · rcases le_or_gt (cString name).length 202 with middle | long
    · rw [selectOrder_middle middle]
      by_cases ends : (cString name).length = 201 ∨ (cString name).length = 202
      · have tail : (ascii " LIMIT 1").take (202 - (cString name).length) = [] ∨
            (ascii " LIMIT 1").take (202 - (cString name).length) = ascii " " := by
          rcases ends with one | none
          · rw [one]
            exact .inr rfl
          · rw [none]
            exact .inl rfl
        exact ⟨fun _ => ⟨_, lawful.select db _ plain unblanked _ tail, .inl rfl⟩, fun not => absurd (.inr ends) not⟩
      · refine ⟨fun selectable => absurd selectable (by omega), fun _ => ?_⟩
        exact lawful.selectTail db _ plain _ (by omega) (by omega)
    · rw [selectOrder_long long]
      exact ⟨fun selectable => absurd selectable (by omega), fun _ => lawful.unterminated db _ (plain.take 203)⟩

theorem verify_register (passwords : List Bytes) :
    ({ name, pwd, isLogin := false } : UserVerify Unit).verify passwords = passwords.isEmpty := by
  have stays : passwords.foldl (fun _ password => false && decide (pwd = password)) false = false := by
    induction passwords with
    | nil => rfl
    | cons password passwords ih => exact ih
  cases passwords with
  | nil => rfl
  | cons password passwords => exact stays

theorem register_fst (mysql : Mysql Db) (insertFails : Bool) (name pwd : Bytes) (db : Db) :
    (register mysql insertFails name pwd db).1 = true := by
  rw [register]
  split <;> rfl

theorem userVerify_free {next : Db} (given : name ≠ [] ∧ pwd ≠ [])
    (selected : mysql.execute db (selectOrder name) = some (some [], next)) :
    userVerify mysql false insertFails name pwd false db = some (true, (register mysql insertFails name pwd next).2) := by
  have queried : mysqlQuery mysql false db (selectOrder name) = some (some [], next) := selected
  rw [userVerify, if_neg (by simpa using given), queried]
  exact congrArg some (Prod.ext (register_fst mysql insertFails name pwd next) rfl)

/-- A registration is told to have succeeded only when the name was free. -/
theorem userVerify_registered (done : userVerify mysql selectFails insertFails name pwd false db = some (true, registered)) :
    selectFails = false ∧ ∃ next, mysql.execute db (selectOrder name) = some (some [], next) ∧
      registered = (register mysql insertFails name pwd next).2 := by
  by_cases given : name = [] ∨ pwd = []
  · rw [userVerify, if_pos given] at done
    cases done
  rw [userVerify, if_neg given] at done
  split at done
  · cases done
  next rows next queried =>
    cases selectFails with
    | true => cases queried
    | false =>
      obtain ⟨list, result, done⟩ := Option.bind_eq_some_iff.mp done
      obtain ⟨passwords, values, done⟩ := Option.bind_eq_some_iff.mp done
      rw [verify_register] at done
      cases list with
      | nil =>
        cases values
        cases result
        refine ⟨rfl, next, queried, ?_⟩
        exact (congrArg Prod.snd (Option.some.inj done)).symm
      | cons first rest =>
        rw [List.mapM_cons] at values
        obtain ⟨password, _, values⟩ := Option.bind_eq_some_iff.mp values
        obtain ⟨others, _, same⟩ := Option.bind_eq_some_iff.mp values
        cases same
        cases done

theorem userVerify_login {rows : List (Option Bytes)} {next : Db} (given : name ≠ [] ∧ pwd ≠ [])
    (selected : mysql.execute db (selectOrder name) = some (some rows, next)) :
    (rows = [] → userVerify mysql false false name pwd true db = some (false, next)) ∧
      ∀ password, rows = [some password] →
        userVerify mysql false false name pwd true db = some (decide (pwd = cString password), next) := by
  have queried : mysqlQuery mysql false db (selectOrder name) = some (some rows, next) := selected
  rw [userVerify, if_neg (by simpa using given), queried]
  constructor
  · intro none
    subst none
    rfl
  · intro password one
    subst one
    rfl

theorem unpadded_eq_self {text : Bytes} : unpadded text = text ↔ Unblanked text := by
  rw [unpadded, List.rdropWhile_eq_self_iff, Unblanked]
  constructor
  · intro solid last
    have nonempty : text ≠ [] := by
      intro empty
      rw [empty] at last
      cases last
    rw [List.getLast?_eq_some_getLast nonempty] at last
    exact solid nonempty (by simpa using last)
  · intro unblanked nonempty last
    rw [List.getLast?_eq_some_getLast nonempty] at unblanked
    exact unblanked (by simpa using last)

/-- The password comes back as it was given. -/
theorem returned_iff : pwd = cString (unpadded (cString pwd)) ↔ 0 ∉ pwd ∧ Unblanked pwd := by
  have cut : cString (unpadded (cString pwd)) <+: unpadded (cString pwd) := List.takeWhile_prefix _
  have unpad : unpadded (cString pwd) <+: cString pwd := List.rdropWhile_prefix _ _
  have front : cString pwd <+: pwd := List.takeWhile_prefix _
  constructor
  · intro same
    have length := congrArg List.length same
    have whole : cString pwd = pwd := front.eq_of_length_le (by have := (cut.trans unpad).length_le; omega)
    refine ⟨whole ▸ zero_not_mem_cString pwd, unpadded_eq_self.mp ?_⟩
    rw [whole] at cut unpad same
    exact unpad.eq_of_length_le (by have := cut.length_le; rw [← same] at this; exact this)
  · intro ⟨plain, unblanked⟩
    rw [cString_of_absent plain, unpadded_eq_self.mpr unblanked, cString_of_absent plain]

/-- What a name has to be for the two statements to be as they are meant. -/
def PlainName (name : Bytes) : Prop := PlainText name ∧ Unblanked name

theorem insertOrder_short (shortName : (cString name).length ≤ 50) (shortPwd : (cString pwd).length ≤ 50) :
    insertOrder name pwd = insertText (cString name) (cString pwd) := by
  apply List.take_of_length_le
  have front : insertFront.length = 45 := by decide
  have middle : (ascii "','").length = 3 := rfl
  have back : (ascii "')").length = 2 := rfl
  simp only [insertText, List.length_append]
  omega

theorem Lawful.register_stores (lawful : Lawful mysql users sameName) (plainName : PlainName (cString name))
    (plainPwd : PlainText (cString pwd)) (shortName : (cString name).length ≤ 50) (shortPwd : (cString pwd).length ≤ 50)
    (db : Db) :
    users (register mysql false name pwd db).2 = users db ++ [(cString name, some (unpadded (cString pwd)))] := by
  obtain ⟨rows, next, executed, added⟩ := lawful.insert db _ _ plainName.1 plainName.2 plainPwd shortName shortPwd
  have queried : mysqlQuery mysql false db (insertOrder name pwd) = some (rows, next) := by
    rw [insertOrder_short shortName shortPwd]
    exact executed
  rw [register, queried]
  exact added

theorem Lawful.register_refused (lawful : Lawful mysql users sameName) (plainName : PlainName (cString name))
    (plainPwd : PlainText (cString pwd)) (db : Db)
    (wrong : insertFails = true ∨ 50 < (cString name).length ∨ 50 < (cString pwd).length) :
    (register mysql insertFails name pwd db).2 = db := by
  have queried : mysqlQuery mysql insertFails db (insertOrder name pwd) = none := by
    rw [mysqlQuery]
    split
    · rfl
    next reaches => exact lawful.tooLong db _ _ plainName.1 plainPwd (wrong.resolve_left reaches) 255
  rw [register, queried]

/-- The INSERT reaches the database, and its columns hold the name and give the password back. -/
structure Recorded (insertFails : Bool) (name pwd : Bytes) : Prop where
  reaches : insertFails = false
  shortName : (cString name).length ≤ 50
  shortPwd : (cString pwd).length ≤ 50
  whole : 0 ∉ pwd
  unblanked : Unblanked pwd

/-- After a registration that has been told to have succeeded, a login that asks the database is
refused exactly when the registration was not recorded. -/
theorem Lawful.login_iff (lawful : Lawful mysql users sameName) (given : name ≠ [] ∧ pwd ≠ [])
    (plainName : PlainName (cString name)) (plainPwd : PlainText (cString pwd)) (selectable : Selectable (cString name))
    (free : found users sameName db (cString name) = []) :
    (∃ next, userVerify mysql false false name pwd true (register mysql insertFails name pwd db).2 = some (true, next)) ↔
      Recorded insertFails name pwd := by
  by_cases wrong : insertFails = true ∨ 50 < (cString name).length ∨ 50 < (cString pwd).length
  · rw [lawful.register_refused plainName plainPwd db wrong]
    obtain ⟨rows, selected, few⟩ := (lawful.select_iff plainName.1 plainName.2 db).1 selectable
    rw [free, List.take_nil, or_self] at few
    rw [(userVerify_login given selected).1 few]
    constructor
    · intro ⟨_, done⟩
      cases done
    · intro recorded
      rcases wrong with fails | long | long
      · cases recorded.reaches.symm.trans fails
      · exact absurd recorded.shortName (not_le.mpr long)
      · exact absurd recorded.shortPwd (not_le.mpr long)
  · simp only [not_or, not_lt, Bool.not_eq_true] at wrong
    obtain ⟨rfl, shortName, shortPwd⟩ := wrong
    let next := (register mysql false name pwd db).2
    have rows : found users sameName next (cString name) = [some (unpadded (cString pwd))] := by
      rw [found] at free ⊢
      rw [lawful.register_stores plainName plainPwd shortName shortPwd, List.filter_append, List.map_append, free]
      simp [lawful.same]
    obtain ⟨list, selected, one⟩ := (lawful.select_iff plainName.1 plainName.2 next).1 selectable
    rw [rows, List.take_of_length_le (Nat.le_refl 1), or_self] at one
    rw [(userVerify_login given selected).2 _ one]
    constructor
    · intro ⟨_, done⟩
      have same := of_decide_eq_true (congrArg Prod.fst (Option.some.inj done))
      obtain ⟨whole, unblanked⟩ := returned_iff.mp same
      exact ⟨rfl, shortName, shortPwd, whole, unblanked⟩
    · intro recorded
      have same := returned_iff.mpr ⟨recorded.whole, recorded.unblanked⟩
      exact ⟨next, by rw [decide_eq_true same]⟩

/-- The registration is refused, because the query fails or for the sake of the name, or it is
recorded. -/
def RefusedOrRecorded (users : Db → List (Bytes × Option Bytes)) (sameName : Bytes → Bytes → Bool)
    (selectFails insertFails : Bool) (name pwd : Bytes) (db : Db) : Prop :=
  selectFails = true ∨ PlainName (cString name) ∧ (¬ Selectable (cString name) ∨
    found users sameName db (cString name) ≠ [] ∨ PlainText (cString pwd) ∧ Recorded insertFails name pwd)

end

/-- The user table by itself, in place of a database: its statements are read as they are written. -/
def plainMysql : Mysql (List (Bytes × Option Bytes)) where
  execute db text :=
    let name := (text.drop selectFront.length).takeWhile (· != 39)
    let tail := text.drop (selectFront.length + name.length + 1)
    let rows := (db.filter fun user => user.1 = name).map Prod.snd
    let newName := (text.drop insertFront.length).takeWhile (· != 39)
    let newPwd := (text.drop (insertFront.length + newName.length + 3)).takeWhile (· != 39)
    if text = selectFront ++ name ++ 39 :: tail then
      if tail = [] ∨ tail = ascii " " then some (some rows, db)
      else if tail = ascii " LIMIT 1" then some (some (rows.take 1), db)
      else none
    else if text = insertText newName newPwd ∧ newName.length ≤ 50 ∧ newPwd.length ≤ 50 then
      some (none, db ++ [(newName, some (unpadded newPwd))])
    else none

private theorem quote_not_mem {text : Bytes} (plain : PlainText text) : 39 ∉ text := fun member => (plain 39 member).2.1 rfl

private theorem quote_not_mem_takeWhile (text : Bytes) : 39 ∉ text.takeWhile (· != 39) := by
  intro member
  exact absurd (List.mem_takeWhile_imp member) (by decide)

private theorem takeWhile_quote {text : Bytes} (plain : PlainText text) (rest : Bytes) :
    (text ++ 39 :: rest).takeWhile (· != 39) = text := by
  rw [List.takeWhile_append_of_pos, List.takeWhile_cons]
  · simp
  · intro c member
    simpa using (plain c member).2.1

/-- Up to the first quote, a text is the beginning of another only when they are the same there. -/
private theorem prefix_quote {first second left right : Bytes} (plain : 39 ∉ first) (plain' : 39 ∉ second)
    (front : first ++ 39 :: left <+: second ++ 39 :: right) : first = second ∧ left <+: right := by
  induction first generalizing second with
  | nil =>
    cases second with
    | nil => exact ⟨rfl, (List.cons_prefix_cons.mp front).2⟩
    | cons c second =>
      obtain ⟨same, _⟩ := List.cons_prefix_cons.mp front
      exact absurd (same ▸ List.mem_cons_self) plain'
  | cons c first ih =>
    cases second with
    | nil =>
      obtain ⟨same, _⟩ := List.cons_prefix_cons.mp front
      exact absurd (same ▸ List.mem_cons_self) plain
    | cons d second =>
      obtain ⟨rfl, rest⟩ := List.cons_prefix_cons.mp front
      obtain ⟨rfl, within⟩ := ih (fun member => plain (List.mem_cons_of_mem _ member)) (fun member => plain' (List.mem_cons_of_mem _ member)) rest
      exact ⟨rfl, within⟩

private theorem fronts_head : insertFront.head? = some 73 ∧ selectFront.head? = some 83 := by decide

/-- No beginning of an INSERT is a SELECT. -/
private theorem take_insert_ne_select {name pwd : Bytes} {length : Nat} (rest : Bytes) :
    (insertText name pwd).take length ≠ selectFront ++ rest := by
  intro same
  have head := congrArg List.head? same
  simp only [List.head?_take, insertText, List.head?_append, fronts_head, Option.some_or] at head
  split at head <;> cases head

private theorem insert_ne_select {name pwd : Bytes} (rest : Bytes) : insertText name pwd ≠ selectFront ++ rest := by
  have whole := @take_insert_ne_select name pwd (insertText name pwd).length rest
  rwa [List.take_length] at whole

private theorem insertText_eq (name pwd : Bytes) :
    insertText name pwd = insertFront ++ (name ++ 39 :: 44 :: 39 :: (pwd ++ [39, 41])) := by
  have middle : ascii "','" = [39, 44, 39] := rfl
  have back : ascii "')" = [39, 41] := rfl
  simp [insertText, middle, back]

private theorem insertText_prefix {name pwd name' pwd' : Bytes} (plainName : 39 ∉ name) (plainPwd : 39 ∉ pwd)
    (plainName' : 39 ∉ name') (plainPwd' : 39 ∉ pwd') (front : insertText name pwd <+: insertText name' pwd') :
    name = name' ∧ pwd = pwd' := by
  rw [insertText_eq, insertText_eq, List.prefix_append_right_inj] at front
  obtain ⟨sameName, front⟩ := prefix_quote plainName plainName' front
  obtain ⟨_, front⟩ := List.cons_prefix_cons.mp front
  obtain ⟨_, front⟩ := List.cons_prefix_cons.mp front
  exact ⟨sameName, (prefix_quote plainPwd plainPwd' front).1⟩

section
variable {db : List (Bytes × Option Bytes)} {name pwd : Bytes}

private theorem execute_select (plain : PlainText name) (tail : Bytes) :
    plainMysql.execute db (selectFront ++ name ++ 39 :: tail) =
      if tail = [] ∨ tail = ascii " " then some (some (found id (fun a b => decide (a = b)) db name), db)
      else if tail = ascii " LIMIT 1" then some (some ((found id (fun a b => decide (a = b)) db name).take 1), db)
      else none := by
  have read : ((selectFront ++ name ++ 39 :: tail).drop selectFront.length).takeWhile (· != 39) = name := by
    rw [List.append_assoc, List.drop_left, takeWhile_quote plain]
  have behind : (selectFront ++ name ++ 39 :: tail).drop (selectFront.length + name.length + 1) = tail := by
    rw [← List.length_append, ← List.drop_drop, List.drop_left]
    rfl
  simp only [plainMysql, read, behind, if_true]
  rfl

private theorem execute_insert {text : Bytes} (other : ∀ rest, text ≠ selectFront ++ rest)  :
    plainMysql.execute db text =
      let newName := (text.drop insertFront.length).takeWhile (· != 39)
      let newPwd := (text.drop (insertFront.length + newName.length + 3)).takeWhile (· != 39)
      if text = insertText newName newPwd ∧ newName.length ≤ 50 ∧ newPwd.length ≤ 50 then
        some (none, db ++ [(newName, some (unpadded newPwd))])
      else none := by
  simp only [plainMysql]
  rw [if_neg]
  rw [List.append_assoc]
  exact other _

end

theorem plainMysql_lawful : Lawful plainMysql id (fun a b => decide (a = b)) where
  same name := decide_eq_true rfl
  select db name plain _ tail ends := by rw [execute_select plain, if_pos ends]
  selectLimit db name plain _ := by
    have quoted : ascii "' LIMIT 1" = 39 :: ascii " LIMIT 1" := rfl
    rw [quoted, execute_select plain, if_neg (by decide), if_pos rfl]
  selectTail db name plain length low high := by
    rw [execute_select plain]
    interval_cases length <;> rw [if_neg (by decide), if_neg (by decide)]
  unterminated db name plain := by
    have read : ((selectFront ++ name).drop selectFront.length).takeWhile (· != 39) = name := by
      rw [List.drop_left, List.takeWhile_eq_self_iff]
      intro c member
      simpa using (plain c member).2.1
    simp only [plainMysql, read]
    rw [if_neg, if_neg]
    · intro holds
      exact insert_ne_select name holds.1.symm
    · intro same
      have length := congrArg List.length same
      simp only [List.length_append, List.length_cons] at length
      omega
  insert db name pwd plainName _ plainPwd shortName shortPwd := by
    have readName : ((insertText name pwd).drop insertFront.length).takeWhile (· != 39) = name := by
      rw [insertText_eq, List.drop_left, takeWhile_quote plainName]
    have readPwd : ((insertText name pwd).drop (insertFront.length + name.length + 3)).takeWhile (· != 39) = pwd := by
      rw [insertText_eq, ← List.append_assoc, ← List.length_append, ← List.drop_drop, List.drop_left]
      exact takeWhile_quote plainPwd [41]
    rw [execute_insert insert_ne_select]
    simp only [readName, readPwd, shortName, shortPwd, and_self, if_true]
    exact ⟨none, _, rfl, rfl⟩
  tooLong db name pwd plainName plainPwd long length := by
    rw [execute_insert take_insert_ne_select]
    apply if_neg
    intro ⟨same, shortName, shortPwd⟩
    have front := List.take_prefix length (insertText name pwd)
    rw [same] at front
    obtain ⟨sameName, samePwd⟩ := insertText_prefix (quote_not_mem_takeWhile _) (quote_not_mem_takeWhile _)
      (quote_not_mem plainName) (quote_not_mem plainPwd) front
    rw [sameName] at shortName
    rw [samePwd] at shortPwd
    omega

end HttpFramework.Code.HttpRequest
