import LightningServer.Net.HttpSession

/-!
# What a connection goes through

The order in which a session starts operations, learns of their end,
dispatches requests and answers them is a path of a small machine.  `Phase` is
its state, and `follow` reads a list of marks.  The results say what any list
of marks that it accepts looks like.
-/

namespace LightningServer.Net.Lifecycle

/-- What can be seen of a session. -/
inductive Mark where
  | readIssued
  /-- a read ended without an error -/
  | readDone
  | dispatch (req : HttpRequest)
  /-- the write of a response was started -/
  | respond (response : Bytes) (close : Bool)
  /-- a write ended without an error -/
  | written
  | closed
  /-- an operation ended with an error -/
  | failed
  /-- an exception left a handler -/
  | thrown
deriving DecidableEq

inductive Phase where
  | idle
  | reading
  /-- bytes were read and not parsed yet -/
  | received
  | dispatched
  | writing (close : Bool)
  | written (close : Bool)
  | over
deriving DecidableEq

namespace Phase

def next : Phase → Mark → Option Phase
  | .idle, .readIssued => some .reading
  | .reading, .readDone => some .received
  | .reading, .failed => some .over
  | .received, .readIssued => some .reading
  | .received, .dispatch _ => some .dispatched
  | .received, .thrown => some .over
  | .dispatched, .respond _ close => some (.writing close)
  | .dispatched, .thrown => some .over
  | .writing close, .written => some (.written close)
  | .writing _, .failed => some .over
  | .written false, .readIssued => some .reading
  | .written true, .closed => some .over
  | _, _ => none

def follow : Phase → List Mark → Option Phase
  | phase, [] => some phase
  | phase, mark :: rest => (phase.next mark).bind fun later =>
      later.follow rest

@[simp]
theorem follow_nil (phase : Phase) : phase.follow [] = some phase :=
  rfl

theorem follow_cons_eq_some_iff
    {phase last : Phase} {mark : Mark} {rest : List Mark} :
    phase.follow (mark :: rest) = some last ↔
      ∃ later, phase.next mark = some later ∧
        later.follow rest = some last :=
  Option.bind_eq_some_iff

theorem follow_append_eq_some_iff
    {phase last : Phase} {first second : List Mark} :
    phase.follow (first ++ second) = some last ↔
      ∃ middle, phase.follow first = some middle ∧
        middle.follow second = some last := by
  induction first generalizing phase with
  | nil => simp
  | cons mark first induction =>
      rw [List.cons_append, follow_cons_eq_some_iff]
      constructor
      · rintro ⟨later, here, continued⟩
        rcases induction.mp continued with ⟨middle, front, back⟩
        exact ⟨middle,
          follow_cons_eq_some_iff.mpr ⟨later, here, front⟩, back⟩
      · rintro ⟨middle, front, back⟩
        rcases follow_cons_eq_some_iff.mp front with
          ⟨later, here, continued⟩
        exact ⟨later, here, induction.mpr ⟨middle, continued, back⟩⟩

/-- The operations outstanding in a phase. -/
def pending : Phase → List AsyncOp
  | .reading => [.read]
  | .writing close => [.write close]
  | _ => []

theorem length_pending_le (phase : Phase) : phase.pending.length ≤ 1 := by
  cases phase <;> simp [pending]

/-! ## The end -/

/-- A mark after which nothing comes. -/
def Ends : Mark → Prop
  | .closed | .failed | .thrown => True
  | _ => False

theorem eq_nil_of_follow_over
    {last : Phase} {marks : List Mark}
    (followed : Phase.over.follow marks = some last) : marks = [] := by
  cases marks with
  | nil => rfl
  | cons mark rest =>
      rcases follow_cons_eq_some_iff.mp followed with ⟨later, here, -⟩
      cases mark <;> cases here

theorem next_of_ends
    {phase later : Phase} {mark : Mark} (ends : Ends mark)
    (here : phase.next mark = some later) : later = .over := by
  unfold next at here
  split at here
  all_goals first
    | exact (Option.some.inj here).symm
    | exact ends.elim
    | cases here

theorem eq_nil_of_ends
    {phase last : Phase} {before after : List Mark} {mark : Mark}
    (followed : phase.follow (before ++ mark :: after) = some last)
    (ends : Ends mark) : after = [] := by
  rcases follow_append_eq_some_iff.mp followed with ⟨middle, -, continued⟩
  rcases follow_cons_eq_some_iff.mp continued with ⟨later, here, rest⟩
  rw [next_of_ends ends here] at rest
  exact eq_nil_of_follow_over rest

/-! ## Requests and responses -/

theorem next_dispatch
    {phase later : Phase} {req : HttpRequest}
    (here : phase.next (.dispatch req) = some later) :
    later = .dispatched := by
  unfold next at here
  split at here
  all_goals simp_all

theorem next_respond
    {phase later : Phase} {response : Bytes} {close : Bool}
    (here : phase.next (.respond response close) = some later) :
    phase = .dispatched := by
  unfold next at here
  split at here
  all_goals simp_all

/-- Only a dispatch leads where a response may be started. -/
theorem next_eq_dispatched
    {phase : Phase} {mark : Mark}
    (here : phase.next mark = some .dispatched) :
    ∃ req, mark = .dispatch req := by
  unfold next at here
  split at here
  all_goals first
    | exact ⟨_, rfl⟩
    | cases here

/-- A dispatch is followed by the response, or by an exception and the end. -/
theorem after_dispatch
    {phase last : Phase} {before after : List Mark} {req : HttpRequest}
    (followed :
      phase.follow (before ++ .dispatch req :: after) = some last) :
    after = [] ∨ after = [.thrown] ∨
      ∃ response close rest, after = .respond response close :: rest := by
  rcases follow_append_eq_some_iff.mp followed with ⟨middle, -, continued⟩
  rcases follow_cons_eq_some_iff.mp continued with ⟨later, here, rest⟩
  rw [next_dispatch here] at rest
  cases after with
  | nil => exact Or.inl rfl
  | cons mark after =>
      rcases follow_cons_eq_some_iff.mp rest with ⟨phase, second, ending⟩
      cases mark with
      | respond response close =>
          exact Or.inr (Or.inr ⟨response, close, after, rfl⟩)
      | thrown =>
          cases second
          rw [eq_nil_of_follow_over ending]
          exact Or.inr (Or.inl rfl)
      | _ => cases second

/-- A response directly follows the dispatch of its request. -/
theorem before_respond
    {last : Phase} {before after : List Mark} {response : Bytes}
    {close : Bool}
    (followed :
      Phase.idle.follow (before ++ .respond response close :: after) =
        some last) :
    ∃ earlier req, before = earlier ++ [.dispatch req] := by
  rcases follow_append_eq_some_iff.mp followed with
    ⟨middle, front, continued⟩
  rcases follow_cons_eq_some_iff.mp continued with ⟨later, here, -⟩
  rw [next_respond here] at front
  rcases List.eq_nil_or_concat' before with rfl | ⟨earlier, mark, rfl⟩
  · cases front
  · rcases follow_append_eq_some_iff.mp front with ⟨phase, -, single⟩
    rcases follow_cons_eq_some_iff.mp single with ⟨next, step, done⟩
    cases done
    rcases next_eq_dispatched step with ⟨req, rfl⟩
    exact ⟨earlier, req, rfl⟩

/-! ## As many responses as reads, at most -/

def isRespond : Mark → Bool
  | .respond _ _ => true
  | _ => false

/-- A read that has not been answered yet. -/
def unanswered : Phase → Nat
  | .received | .dispatched => 1
  | _ => 0

theorem next_counts
    {phase later : Phase} {mark : Mark}
    (here : phase.next mark = some later) :
    [mark].countP isRespond + later.unanswered ≤
      [mark].count .readDone + phase.unanswered := by
  unfold next at here
  split at here
  all_goals cases here <;> simp [isRespond, unanswered]

theorem follow_counts
    {phase last : Phase} {marks : List Mark}
    (followed : phase.follow marks = some last) :
    marks.countP isRespond + last.unanswered ≤
      marks.count .readDone + phase.unanswered := by
  induction marks generalizing phase with
  | nil =>
      cases followed
      simp
  | cons mark rest induction =>
      rcases follow_cons_eq_some_iff.mp followed with
        ⟨later, here, continued⟩
      have first := next_counts here
      have others := induction continued
      have responds :
          (mark :: rest).countP isRespond =
            [mark].countP isRespond + rest.countP isRespond := by
        rw [← List.countP_append, List.singleton_append]
      have reads :
          (mark :: rest).count Mark.readDone =
            [mark].count Mark.readDone + rest.count Mark.readDone := by
        rw [← List.count_append, List.singleton_append]
      omega

end Phase

end LightningServer.Net.Lifecycle
