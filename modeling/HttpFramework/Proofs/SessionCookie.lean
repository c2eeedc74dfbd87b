import HttpFramework.Http.Session
import HttpFramework.Library.Search

/-! The session id in a `Cookie` header. `getSessionIdFromCookie` looks for the first place of a text
and takes what follows, so that any cookie in front of the right one may be read in its stead. -/

namespace HttpFramework.Http
open Search

structure Cookie where
  name : Bytes
  value : Bytes
  named : ∀ c ∈ name, c ≠ chr '=' ∧ c ≠ chr ';' ∧ c ≠ chr ' '
  valued : chr ';' ∉ value

namespace Cookie

def text (cookie : Cookie) : Bytes := cookie.name ++ chr '=' :: cookie.value

def header (cookies : List Cookie) : Bytes := (ascii "; ").intercalate (cookies.map text)

def sessionName : Bytes := ascii "sessionId"

/-- The value of the first cookie of that name, or nothing. -/
def sessionId (cookies : List Cookie) : Bytes :=
  ((cookies.find? fun cookie => cookie.name = sessionName).map value).getD []

/-- What follows the name and `=` in the text of the cookie, where its own name may end so. -/
def carried (cookie : Cookie) : Option Bytes :=
  if sessionName.isSuffixOf cookie.name then some cookie.value else behind (sessionName ++ [chr '=']) cookie.value

/-- The first cookie whose text has the name and `=` is the right one, or has the same value there. -/
def Unshadowed (cookies : List Cookie) : Prop :=
  ∀ cookie, cookies.find? (fun cookie => cookie.carried.isSome) = some cookie →
    cookie.name = sessionName ∨ cookie.carried = some (sessionId cookies)

theorem behind_text (cookie : Cookie) : behind (sessionName ++ [chr '=']) cookie.text = cookie.carried := by
  apply behind_last
  · decide
  · intro member
    exact (cookie.named _ member).1 rfl

theorem carried_valued {cookie : Cookie} {value : Bytes} (carries : cookie.carried = some value) : chr ';' ∉ value := by
  rw [carried] at carries
  split at carries
  · cases carries
    exact cookie.valued
  · intro member
    exact cookie.valued ((behind_suffix carries).subset member)

theorem header_cons (first second : Cookie) (cookies : List Cookie) :
    header (first :: second :: cookies) = first.text ++ chr ';' :: chr ' ' :: header (second :: cookies) := by
  rw [header, List.map_cons, List.map_cons, List.intercalate_cons_cons, List.append_assoc]
  rfl

theorem takeWhile_carried {value : Bytes} (valued : chr ';' ∉ value) (rest : Bytes) :
    (value ++ chr ';' :: rest).takeWhile (· != chr ';') = value := by
  rw [List.takeWhile_append_of_pos]
  · simp
  · intro c member
    exact bne_iff_ne.mpr fun same => valued (same ▸ member)

/-- Cookie by cookie, the first text that is found is that of the first cookie to carry it. -/
theorem behind_header (cookies : List Cookie) :
    (behind (sessionName ++ [chr '=']) (header cookies)).map (List.takeWhile (· != chr ';')) = cookies.findSome? carried := by
  induction cookies with
  | nil => rfl
  | cons first cookies ih =>
    rw [List.findSome?_cons]
    cases cookies with
    | nil =>
      rw [show header [first] = first.text from List.intercalate_singleton, behind_text]
      cases carries : first.carried with
      | none => rfl
      | some value =>
        have whole : value.takeWhile (· != chr ';') = value := List.takeWhile_eq_self_iff.mpr fun c member =>
          bne_iff_ne.mpr fun same => carried_valued carries (same ▸ member)
        exact congrArg some whole
    | cons second cookies =>
      have apart : chr ';' ∉ sessionName ++ [chr '='] := by decide
      have blank : behind (sessionName ++ [chr '=']) (chr ' ' :: header (second :: cookies)) =
          behind (sessionName ++ [chr '=']) (header (second :: cookies)) := behind_cons_of_ne (by decide) (by decide) _
      rw [header_cons, behind_join apart (by decide), behind_text, blank]
      cases carries : first.carried with
      | none => exact ih
      | some value => exact congrArg some (takeWhile_carried (carried_valued carries) _)

end Cookie

theorem SessionManager.find_behind (marker text : Bytes) :
    (find marker text).map (fun pos => text.drop (pos + marker.length)) = behind marker text := by
  induction text with
  | nil =>
    rw [find, behind]
    split <;> simp
  | cons c text ih =>
    rw [find, behind]
    split
    · simp
    · rw [← ih, Option.map_map]
      cases find marker text with
      | none => rfl
      | some pos => simp [Nat.add_right_comm]

section
variable {request : HttpRequest} {cookies : List Cookie}

theorem getSessionIdFromCookie_carried (sent : request.getHeader (ascii "Cookie") = Cookie.header cookies) :
    SessionManager.getSessionIdFromCookie request = (cookies.findSome? Cookie.carried).getD [] := by
  rw [← Cookie.behind_header, ← SessionManager.find_behind, SessionManager.getSessionIdFromCookie, sent]
  have marker : ascii "sessionId=" = Cookie.sessionName ++ [chr '='] := by decide
  rw [marker]
  cases SessionManager.find (Cookie.sessionName ++ [chr '=']) (Cookie.header cookies) <;> rfl

theorem Cookie.carried_of_named {cookie : Cookie} (named : cookie.name = sessionName) : cookie.carried = some cookie.value := by
  rw [carried, named, if_pos (by decide)]

theorem findSome_carried (cookies : List Cookie) :
    cookies.findSome? Cookie.carried = (cookies.find? fun cookie => cookie.carried.isSome).bind Cookie.carried := by
  induction cookies with
  | nil => rfl
  | cons first cookies ih =>
    rw [List.findSome?_cons, List.find?_cons]
    cases carries : first.carried with
    | none => exact ih
    | some value => exact carries.symm

theorem sessionId_of_uncarried (uncarried : cookies.find? (fun cookie => cookie.carried.isSome) = none) :
    Cookie.sessionId cookies = [] := by
  have unnamed : cookies.find? (fun cookie => cookie.name = Cookie.sessionName) = none := by
    rw [List.find?_eq_none] at uncarried ⊢
    intro cookie member named
    have carries := Cookie.carried_of_named (of_decide_eq_true named)
    exact uncarried cookie member (by rw [carries]; rfl)
  rw [Cookie.sessionId, unnamed]
  rfl

/-- A cookie of that name is the first of that name when no cookie before it carries anything. -/
theorem sessionId_of_named {cookie : Cookie} (found : cookies.find? (fun cookie => cookie.carried.isSome) = some cookie)
    (named : cookie.name = Cookie.sessionName) : Cookie.sessionId cookies = cookie.value := by
  obtain ⟨-, before, after, rfl, passed⟩ := List.find?_eq_some_iff_append.mp found
  have first : (before ++ cookie :: after).find? (fun cookie => cookie.name = Cookie.sessionName) = some cookie := by
    apply List.find?_eq_some_iff_append.mpr
    refine ⟨decide_eq_true named, before, after, rfl, fun earlier member => ?_⟩
    have uncarried := passed earlier member
    rw [Bool.not_eq_true', decide_eq_false_iff_not]
    intro same
    rw [Cookie.carried_of_named same] at uncarried
    cases uncarried
  rw [Cookie.sessionId, first]
  rfl

end

namespace Cookie

def theme : Cookie where
  name := ascii "theme"
  value := ascii "dark"
  named := by decide +kernel
  valued := by decide +kernel

def session : Cookie where
  name := sessionName
  value := ascii "5f2a"
  named := by decide +kernel
  valued := by decide +kernel

/-- A cookie of another application, with a name that ends alike. -/
def foreign : Cookie where
  name := ascii "app-sessionId"
  value := ascii "77"
  named := by decide +kernel
  valued := by decide +kernel

end Cookie

def cookieRequest (cookies : List Cookie) : HttpRequest where
  headers := (∅ : Dict).insert (ascii "Cookie") (Cookie.header cookies)

theorem getHeader_cookieRequest (cookies : List Cookie) :
    (cookieRequest cookies).getHeader (ascii "Cookie") = Cookie.header cookies := by
  rw [HttpRequest.getHeader, cookieRequest, Std.ExtTreeMap.getElem?_insert_self]
  rfl

end HttpFramework.Http
