import HttpFramework.Client.Storage
import HttpFramework.Library.Transition

/-! What the table of the storage client says about the server. The identifier that is recorded is
taken after the upload, and the flag of an upload stays from the one before when the connection fails. -/

namespace HttpFramework.Client
open Transition

theorem table_insert {table : Dict} {key val : Bytes} (other : Bytes) :
    (table.insert key val)[other]? = if other = key then some val else table[other]? := by
  rw [Std.ExtTreeMap.getElem?_insert]
  by_cases same : other = key
  · rw [if_pos same, if_pos (Std.compare_eq_iff_eq.mpr same.symm)]
  · rw [if_neg same, if_neg (fun equal => same (Std.compare_eq_iff_eq.mp equal).symm)]

namespace RunModule

variable {state next : RunModule} {action : Action}

/-- A file that is recorded as it is has been uploaded as it is. -/
def Uploaded (state : RunModule) : Prop :=
  ∀ filename, state.uploads.table[filename]? = some (getFileIdentifier filename (state.files filename)) →
    state.acknowledged filename = some (state.files filename).content

/-- What `Uploaded` rests on between the steps of an upload. -/
def InHand (state : RunModule) : Prop :=
  match state.phase with
  | .scanning | .needed _ => True
  | .sent a body => body = (state.files a).content
  | .returned a => state.acknowledged a = some (state.files a).content
  | .identified a id => id = getFileIdentifier a (state.files a) → state.acknowledged a = some (state.files a).content

/-- The server answers every upload with 200. -/
def Action.Accepted : Action → Prop
  | .answer outcome => outcome = .status 200
  | _ => True

/-- A file is not given other content between the time when its content is read and the time when
its identifier is taken. -/
def Undisturbed (state : RunModule) (filename : Bytes) (file : File) : Prop :=
  match state.phase with
  | .sent a body => filename = a → file.content = body
  | .returned a => filename = a → state.acknowledged a = some file.content
  | _ => True

/-- The identifier that is recorded for a file, or about to be, does not come back with other content. -/
def NotBroughtBack (state : RunModule) (filename : Bytes) (file : File) : Prop :=
  state.uploads.table[filename]? = some (getFileIdentifier filename file) ∨
      state.phase = .identified filename (getFileIdentifier filename file) →
    state.acknowledged filename = some file.content

def Harmless (state : RunModule) : Action → Prop
  | .modify filename file => state.Undisturbed filename file ∧ state.NotBroughtBack filename file
  | _ => True

theorem modify_uploaded {filename : Bytes} {file : File} (uploaded : state.Uploaded)
    (back : state.NotBroughtBack filename file) :
    Uploaded { state with files := Function.update state.files filename file } := by
  intro other recorded
  by_cases same : other = filename
  · subst same
    simp only [Function.update_self] at recorded ⊢
    exact back (.inl recorded)
  · simp only [Function.update_of_ne same] at recorded ⊢
    exact uploaded other recorded

theorem modify_inHand {filename : Bytes} {file : File} (hand : state.InHand) (quiet : state.Undisturbed filename file)
    (back : state.NotBroughtBack filename file) :
    InHand { state with files := Function.update state.files filename file } := by
  unfold InHand Undisturbed at *
  cases phase : state.phase with
  | scanning => trivial
  | needed a => trivial
  | sent a body =>
    simp only [phase] at hand quiet ⊢
    by_cases same : a = filename
    · subst same
      rw [Function.update_self]
      exact (quiet rfl).symm
    · rwa [Function.update_of_ne same]
  | returned a =>
    simp only [phase] at hand quiet ⊢
    by_cases same : a = filename
    · subst same
      rw [Function.update_self]
      exact quiet rfl
    · rwa [Function.update_of_ne same]
  | identified a id =>
    simp only [phase] at hand ⊢
    by_cases same : a = filename
    · subst same
      rw [Function.update_self]
      intro current
      exact back (.inr (by rw [phase, current]))
    · rwa [Function.update_of_ne same]

theorem answer_uploaded {a : Bytes} {body : Bytes} (uploaded : state.Uploaded) (current : body = (state.files a).content) :
    Uploaded { state with acknowledged := Function.update state.acknowledged a (some body), phase := .returned a } ∧
      InHand { state with acknowledged := Function.update state.acknowledged a (some body), phase := .returned a } := by
  refine ⟨fun filename recorded => ?_, ?_⟩
  · show Function.update state.acknowledged a (some body) filename = _
    by_cases same : filename = a
    · subst same
      rw [Function.update_self, current]
    · rw [Function.update_of_ne same]
      exact uploaded filename recorded
  · show Function.update state.acknowledged a (some body) a = _
    rw [Function.update_self, current]

theorem step_uploaded (uploaded : state.Uploaded) (hand : state.InHand) (taken : state.step action = some next)
    (accepted : action.Accepted) (harmless : state.Harmless action) : next.Uploaded ∧ next.InHand := by
  cases action with
  | modify filename file =>
    simp only [step] at taken
    split at taken
    · cases taken
    · cases taken
      exact ⟨modify_uploaded uploaded harmless.2, modify_inHand hand harmless.1 harmless.2⟩
  | scan found =>
    simp only [step] at taken
    split at taken
    · cases taken
      exact ⟨uploaded, hand⟩
    · cases taken
  | check now =>
    simp only [step] at taken
    split at taken
    · next a arry phase _ =>
      split at taken
      · cases taken
        exact ⟨uploaded, trivial⟩
      · cases taken
        exact ⟨uploaded, hand⟩
    · cases taken
  | read =>
    simp only [step] at taken
    split at taken
    · cases taken
      exact ⟨uploaded, rfl⟩
    · cases taken
  | answer outcome =>
    cases accepted
    simp only [step] at taken
    split at taken
    · next a body phase =>
      have current : body = (state.files a).content := by
        unfold InHand at hand
        rwa [phase] at hand
      cases taken
      exact answer_uploaded uploaded current
    · cases taken
  | identify =>
    simp only [step] at taken
    split at taken
    · next a phase =>
      have known : state.acknowledged a = some (state.files a).content := by
        unfold InHand at hand
        rwa [phase] at hand
      split at taken
      · cases taken
        exact ⟨uploaded, fun _ => known⟩
      · cases taken
        exact ⟨uploaded, trivial⟩
    · cases taken
  | insert =>
    simp only [step] at taken
    split at taken
    · next a id phase =>
      have known : id = getFileIdentifier a (state.files a) → state.acknowledged a = some (state.files a).content := by
        unfold InHand at hand
        rwa [phase] at hand
      cases taken
      refine ⟨fun filename recorded => ?_, trivial⟩
      change (state.uploads.table.insert a id)[filename]? = _ at recorded
      rw [table_insert] at recorded
      split at recorded
      · next same =>
        subst same
        exact known (Option.some.inj recorded)
      · exact uploaded filename recorded
    · cases taken

/-- With a server that accepts everything, no modification is left un-uploaded as long as none falls
between reading a file and taking its identifier, and none brings back an identifier. -/
theorem uploaded_throughout (files : Bytes → File) (actions : List Action)
    (meets : Throughout step (fun state action _ => action.Accepted ∧ state.Harmless action) { files } actions) :
    Uploaded { files } ∧ Throughout step (fun _ _ next => next.Uploaded) { files } actions := by
  have start : Uploaded { files } := fun filename recorded => by
    change (∅ : Dict)[filename]? = _ at recorded
    rw [Std.ExtTreeMap.getElem?_empty] at recorded
    cases recorded
  refine ⟨start, throughout_of_condition (fun state => state.Uploaded ∧ state.InHand) ?_ ?_ ⟨start, trivial⟩ meets⟩
  · intro state action next invariant taken condition
    exact step_uploaded invariant.1 invariant.2 taken condition.1 condition.2
  · intro state action next invariant taken condition
    exact (step_uploaded invariant.1 invariant.2 taken condition.1 condition.2).1

/-- The file is modified once its upload is recorded. -/
theorem uploaded_modified_later :
    Throughout step (fun _ _ next => next.Uploaded) { files := fun _ => ⟨ascii "one", 0⟩ }
      [.scan [ascii "f"], .check 5, .read, .answer (.status 200), .identify, .insert, .modify (ascii "f") ⟨ascii "other", 8⟩] := by
  refine (uploaded_throughout _ _ ?_).2
  refine .cons rfl ⟨trivial, trivial⟩ (.cons (by rfl) ⟨trivial, trivial⟩ ?_)
  refine .cons rfl ⟨trivial, trivial⟩ (.cons rfl ⟨rfl, trivial⟩ (.cons rfl ⟨trivial, trivial⟩ ?_))
  refine .cons rfl ⟨trivial, trivial⟩ (.cons (by rfl) ⟨trivial, trivial, ?_⟩ (.nil _))
  rintro (recorded | identified)
  · exact absurd recorded (by decide)
  · cases identified

def raced : List Action :=
  [.scan [ascii "f"], .check 5, .read, .modify (ascii "f") ⟨ascii "other", 5⟩, .answer (.status 200), .identify, .insert]

/-- The file is modified while its upload is under way. Its new identifier is recorded for the old content. -/
theorem modified_meanwhile :
    (∀ action ∈ raced, action.Accepted) ∧
      ∃ final, Run step { files := fun _ => ⟨ascii "one", 0⟩ } raced final ∧ ¬ final.Uploaded := by
  refine ⟨by simp [raced, Action.Accepted], ?_⟩
  refine ⟨_, .cons rfl (.cons (by rfl) (.cons rfl (.cons (by rfl) (.cons rfl (.cons rfl (.cons rfl (.nil _))))))), ?_⟩
  intro uploaded
  have known := uploaded (ascii "f") (by decide)
  exact absurd known (by decide)

/-- A file that does not change meanwhile goes through the phases as `Uploads.run` has it. -/
theorem run_uploads (a : Bytes) (arry : List Bytes) (now : Int) (outcome : Outcome)
    (scanning : state.phase = .scanning) (front : state.arry = a :: arry) :
    ∃ actions final, Run step state actions final ∧ final.uploads = state.uploads.run state.files now a outcome ∧
      final.files = state.files ∧ final.phase = .scanning ∧ final.arry = arry := by
  by_cases needed : state.uploads.ifNeedUpload now a (state.files a) = true
  · have checked : state.step (.check now) = some { state with arry, phase := .needed a } := by
      simp [step, scanning, front, needed]
    by_cases success : (state.uploads.uploadCallback outcome).ifUploadSuccess = true
    · refine ⟨[.check now, .read, .answer outcome, .identify, .insert], _,
        .cons checked (.cons rfl (.cons rfl (.cons (if_pos success) (.cons rfl (.nil _))))), ?_, rfl, rfl, rfl⟩
      simp [Uploads.run, needed, success]
    · refine ⟨[.check now, .read, .answer outcome, .identify], _,
        .cons checked (.cons rfl (.cons rfl (.cons (if_neg success) (.nil _)))), ?_, rfl, rfl, rfl⟩
      simp [Uploads.run, needed, success]
  · have checked : state.step (.check now) = some { state with arry } := by
      simp [step, scanning, front, needed]
    refine ⟨[.check now], _, .cons checked (.nil _), ?_, rfl, scanning, rfl⟩
    simp [Uploads.run, needed]

end RunModule

namespace Uploads

variable {uploads : Uploads} {files : Bytes → File}

/-- One file of a scan, with the time and what becomes of its upload. -/
structure Turn where
  now : Int
  a : Bytes
  outcome : Outcome

def step (files : Bytes → File) (uploads : Uploads) (turn : Turn) : Option Uploads :=
  some (uploads.run files turn.now turn.a turn.outcome)

/-- A file that is recorded has been answered with 200. -/
def RecordsAnswered (uploads : Uploads) (turn : Turn) (next : Uploads) : Prop :=
  next.table ≠ uploads.table → turn.outcome = .status 200

/-- A connection does not fail right after an upload that was answered with 200. -/
def FlagDown (files : Bytes → File) (uploads : Uploads) (turn : Turn) : Prop :=
  uploads.ifNeedUpload turn.now turn.a (files turn.a) = true → (∀ code, turn.outcome ≠ .status code) →
    uploads.ifUploadSuccess = false

theorem insert_changes {a id : Bytes} (other : uploads.table[a]? ≠ some id) : (uploads.insert a id).table ≠ uploads.table := by
  intro same
  apply other
  rw [← same]
  show (uploads.table.insert a id)[a]? = some id
  rw [table_insert, if_pos rfl]

theorem recordsAnswered_iff (uploads : Uploads) (turn : Turn) :
    uploads.RecordsAnswered turn (uploads.run files turn.now turn.a turn.outcome) ↔ uploads.FlagDown files turn := by
  obtain ⟨now, a, outcome⟩ := turn
  unfold RecordsAnswered FlagDown run
  by_cases needed : uploads.ifNeedUpload now a (files a) = true
  · have stale : uploads.table[a]? ≠ some (getFileIdentifier a (files a)) := by
      simp only [ifNeedUpload, decide_eq_true_eq] at needed
      exact needed.1
    rw [if_pos needed]
    cases outcome with
    | status code =>
      by_cases ok : code = 200
      · simp [ok]
      · simp [uploadCallback, ok]
    | null | uncalled =>
      cases flag : uploads.ifUploadSuccess with
      | false => simp [uploadCallback, flag]
      | true => simp [uploadCallback, flag, needed, insert_changes stale]
  · simp [needed]

/-- A file is recorded only for its own answer exactly when no connection fails while the flag is
still up from an upload before. -/
theorem recordsAnswered_throughout_iff (files : Bytes → File) (turns : List Turn) :
    Throughout (step files) RecordsAnswered {} turns ↔
      Throughout (step files) (fun uploads turn _ => uploads.FlagDown files turn) {} turns := by
  apply throughout_iff (fun _ => True) _ _ trivial
  · intro _ _ _ _ _ _
    trivial
  · intro uploads turn next _ taken
    cases taken
    exact recordsAnswered_iff uploads turn

/-- The first upload is answered, and the server is gone for the second. -/
theorem recorded_without_answer :
    ¬ Throughout (step fun _ => ⟨ascii "one", 0⟩) RecordsAnswered {}
      [⟨5, ascii "f", .status 200⟩, ⟨5, ascii "g", .null⟩] := by
  intro holds
  cases holds with
  | cons taken _ rest =>
    cases taken
    cases rest with
    | cons taken recorded _ =>
      cases taken
      have down := (recordsAnswered_iff _ _).mp recorded
      exact absurd (down (by decide) nofun) (by decide)

end Uploads

end HttpFramework.Client
