import LightningServer.Net.Lifecycle
import LightningServer.Net.SessionHandlers

/-!
# A session is an implicit strand

The IO threads run the handlers of one session in any interleaving of their
accesses.  A handler runs because an operation of the session ended, and it
starts the next operation as the last thing it does, so at any time there is
either one operation outstanding or one handler at work, and what can be seen
of the session is a path of `Lifecycle.Phase`.

`Stage` describes where a handler is; the programs of `SessionHandlers` are
the code of these stages.
-/

namespace LightningServer.Net.Strand

open LightningServer.Foundation
open LightningServer.Foundation.Numerals
open LightningServer.Foundation.Transition
open LightningServer.Net.HttpParser
open LightningServer.Net.Lifecycle
open LightningServer.Net.SessionHandlers

/-! ## Threads and what they do -/

/-- A completion, and the callback's behaviour then. -/
abbrev Arrival := Option HttpCallback × Completion

def enter (arrival : Arrival) : Handler :=
  handler arrival.1 arrival.2

/-- The session as constructed, and the thread that calls `start`. -/
def accepted : Pool Handler HttpSession :=
  { threads := [doRead]
    world := { buffer := .empty, pending := [], socketOpen := true } }

abbrev step :
    Pool Handler HttpSession → PoolEvent Arrival →
      Pool Handler HttpSession :=
  Pool.step enter (Program.move exec)

/-- What an access with this reply shows. -/
def marksOf : (access : Access) → access.Reply → List Mark
  | .begin _, none => []
  | .begin (.readOk _), some _ => [.readDone]
  | .begin .writeOk, some _ => [.written]
  | .begin .readError, some _ => [.failed]
  | .begin .writeError, some _ => [.failed]
  | .parse, (.ok true, req) => [.dispatch req]
  | .parse, (.ok false, _) => []
  | .parse, (.error _, _) => [.thrown]
  | .callback _ _ _, .ok _ => []
  | .callback _ _ _, .error _ => [.thrown]
  | .asyncReadSome, _ => [.readIssued]
  | .asyncWrite response close, _ => [.respond response close]
  | .close, _ => [.closed]
  | .append _, _ => []
  | .retrieveAll, _ => []

def marksOfNext (access : Option Access) (session : HttpSession) :
    List Mark :=
  match access with
  | none => []
  | some access => marksOf access (exec access session).1

def emit (pool : Pool Handler HttpSession) :
    PoolEvent Arrival → List Mark
  | .arrive _ => []
  | .advance index => marksOfNext (pool.nextCall? index) pool.world

/-- A call that is not the start of a handler. -/
def isWork : Access → Bool
  | .begin _ => false
  | _ => true

/-- The handler has begun, and has an access to make. -/
def AtWork (thread : Handler) : Prop :=
  ∃ access ∈ thread.nextCall, isWork access = true

/-! ## Where a handler is -/

inductive Stage where
  | waiting (callback : Option HttpCallback) (completion : Completion)
  | appending (callback : Option HttpCallback) (bytes : Bytes)
  | parsing (callback : Option HttpCallback)
  | calling (callback : HttpCallback) (req : HttpRequest)
  | responding (resp : HttpResponse) (close : Bool)
  | closing
  | clearing
  | reading
  | returned
  | threw (exception : StdException)

namespace Stage

/-- After the callback. -/
def filled (req : HttpRequest) : Except StdException HttpResponse → Stage
  | .error exception => .threw exception
  | .ok resp => .responding resp (!req.keepAlive)

/-- `handleRequest` up to its first access. -/
def handling (callback : Option HttpCallback) (req : HttpRequest) : Stage :=
  if req.method = ascii "OPTIONS" then
    .responding
      ((HttpSession.defaultResponse.setStatusCode .k200Ok).setBody
        (ascii "\x7b\x7d")) (!req.keepAlive)
  else
    match callback with
    | some callback => .calling callback req
    | none =>
        .responding
          ((HttpSession.defaultResponse.setStatusCode
              .k404NotFound).setBody
            (ascii "\x7b\"error\":\"Not Found\"\x7d")) (!req.keepAlive)

def parsed (callback : Option HttpCallback) :
    ParseResult × HttpRequest → Stage
  | (.error exception, _) => .threw exception
  | (.ok true, req) => handling callback req
  | (.ok false, _) => .reading

def begun (callback : Option HttpCallback) :
    Completion → Option AsyncOp → Stage
  | _, none => .returned
  | .readOk bytes, some _ => .appending callback bytes
  | .writeOk, some op => if op = .write true then .closing else .clearing
  | .readError, some _ => .returned
  | .writeError, some _ => .returned

def code : Stage → Handler
  | .waiting callback completion => handler callback completion
  | .appending callback bytes => onRead callback bytes
  | .parsing callback => do
      let parsed ← ask .parse
      afterParse callback parsed
  | .calling callback req => do
      let filled ← ask (.callback callback req HttpSession.defaultResponse)
      let resp ← .ofExcept filled
      sendResponse resp (!req.keepAlive)
  | .responding resp close => sendResponse resp close
  | .closing => ask .close
  | .clearing => do
      ask .retrieveAll
      doRead
  | .reading => doRead
  | .returned => .ret ()
  | .threw exception => .throw exception

def move : Stage → HttpSession → Stage × HttpSession
  | .waiting callback completion, session =>
      let taken := exec (.begin completion) session
      (begun callback completion taken.1, taken.2)
  | .appending callback bytes, session =>
      (.parsing callback, (exec (.append bytes) session).2)
  | .parsing callback, session =>
      let outcome := exec .parse session
      (parsed callback outcome.1, outcome.2)
  | .calling callback req, session =>
      (filled req (callback req HttpSession.defaultResponse), session)
  | .responding resp close, session =>
      (.returned, (exec (.asyncWrite resp.toString close) session).2)
  | .closing, session => (.returned, (exec .close session).2)
  | .clearing, session => (.reading, (exec .retrieveAll session).2)
  | .reading, session => (.returned, (exec .asyncReadSome session).2)
  | stage, session => (stage, session)

theorem code_handling
    (callback : Option HttpCallback) (req : HttpRequest) :
    (handling callback req).code = handleRequest callback req := by
  unfold handling handleRequest
  split
  · rfl
  · cases callback with
    | none => rfl
    | some callback => rfl

theorem code_parsed
    (callback : Option HttpCallback) (outcome : ParseResult × HttpRequest) :
    (parsed callback outcome).code = afterParse callback outcome := by
  rcases outcome with ⟨result, req⟩
  rcases result with exception | accepted
  · rfl
  · cases accepted with
    | false => rfl
    | true => exact code_handling callback req

theorem code_begun
    (callback : Option HttpCallback) (completion : Completion)
    (op : Option AsyncOp) :
    (begun callback completion op).code =
      afterBegin callback completion op := by
  cases op with
  | none => cases completion <;> rfl
  | some op =>
      cases completion with
      | readOk bytes => rfl
      | readError => rfl
      | writeError => rfl
      | writeOk =>
          simp only [begun, afterBegin, onWrite, decide_eq_true_eq]
          split
          · rfl
          · rfl

/-- A move of a stage is a move of its code. -/
theorem move_code (stage : Stage) (session : HttpSession) :
    Program.move exec stage.code session =
      ((stage.move session).1.code, (stage.move session).2) := by
  cases stage with
  | waiting callback completion =>
      simp only [move, code_begun]
      rfl
  | parsing callback =>
      simp only [move, code_parsed]
      rfl
  | calling callback req =>
      simp only [move]
      cases answered : callback req HttpSession.defaultResponse with
      | error exception =>
          simp [code, ask, Program.move, exec, answered, filled]
      | ok resp =>
          simp [code, ask, Program.move, exec, answered, filled]
  | appending callback bytes => rfl
  | responding resp close => rfl
  | closing => rfl
  | clearing => rfl
  | reading => rfl
  | returned => rfl
  | threw exception => rfl

/-- The handler has begun and not ended. -/
def Active : Stage → Prop
  | .waiting _ _ | .returned | .threw _ => False
  | _ => True

theorem atWork_code_iff (stage : Stage) :
    AtWork stage.code ↔ stage.Active := by
  cases stage <;>
    simp [AtWork, code, handler, onRead, sendResponse, doRead, ask,
      Program.perform, Program.nextCall, isWork, Active, Bind.bind,
      Program.bind]

/-- Where a handler can be in a phase. -/
def Fits : Stage → Phase → Prop
  | .appending _ _, .received => True
  | .parsing _, .received => True
  | .calling _ _, .dispatched => True
  | .responding _ _, .dispatched => True
  | .closing, .written true => True
  | .clearing, .written false => True
  | .reading, .idle => True
  | .reading, .received => True
  | .reading, .written false => True
  | _, _ => False

/-- While a handler is at work, no operation is outstanding. -/
theorem pending_of_fits
    {stage : Stage} {phase : Phase} (fits : stage.Fits phase) :
    phase.pending = [] := by
  unfold Fits at fits
  split at fits
  all_goals first
    | rfl
    | exact fits.elim

theorem fits_handling
    (callback : Option HttpCallback) (req : HttpRequest) :
    (handling callback req).Fits .dispatched := by
  unfold handling
  split
  · trivial
  · cases callback with
    | none => trivial
    | some callback => trivial

/-! ## One move -/

/-- The move is a part of a path, and the handler fits where it leads. -/
def Follows (stage : Stage) (session : HttpSession) (phase : Phase) :
    Prop :=
  ∃ later,
    phase.follow (marksOfNext stage.code.nextCall session) = some later ∧
      (stage.move session).2.pending = later.pending ∧
      ((stage.move session).1.Active → (stage.move session).1.Fits later)

section Moves

variable {session : HttpSession} {phase : Phase}

theorem follows_parsing
    (callback : Option HttpCallback)
    (outstanding : session.pending = []) :
    (Stage.parsing callback).Follows session .received := by
  unfold Follows
  simp only [code, ask, Program.perform_bind, Program.nextCall,
    marksOfNext, exec, move]
  rcases parse session.buffer {} with ⟨result, buffer, req⟩
  rcases result with exception | accepted
  · exact ⟨.over, rfl, outstanding, False.elim⟩
  · cases accepted with
    | false => exact ⟨.received, rfl, outstanding, fun _ => trivial⟩
    | true =>
        exact ⟨.dispatched, rfl, outstanding,
          fun _ => fits_handling callback req⟩

theorem follows_calling
    (callback : HttpCallback) (req : HttpRequest)
    (outstanding : session.pending = []) :
    (Stage.calling callback req).Follows session .dispatched := by
  unfold Follows
  simp only [code, ask, Program.perform_bind, Program.nextCall,
    marksOfNext, exec, move]
  cases callback req HttpSession.defaultResponse with
  | error exception => exact ⟨.over, rfl, outstanding, False.elim⟩
  | ok resp => exact ⟨.dispatched, rfl, outstanding, fun _ => trivial⟩

/-- Starting a read is the last thing a handler does. -/
theorem follows_reading
    (fits : Stage.reading.Fits phase) (outstanding : session.pending = []) :
    Stage.reading.Follows session phase := by
  have started : (Stage.reading.move session).2.pending = [.read] := by
    show session.pending ++ [.read] = [.read]
    rw [outstanding, List.nil_append]
  refine ⟨.reading, ?_, started, False.elim⟩
  unfold Fits at fits
  split at fits
  all_goals first
    | rfl
    | exact fits.elim
    | contradiction

theorem follows_of_fits
    {stage : Stage} (fits : stage.Fits phase)
    (outstanding : session.pending = phase.pending) :
    stage.Follows session phase := by
  rw [pending_of_fits fits] at outstanding
  have whole := fits
  unfold Fits at fits
  split at fits
  · exact ⟨.received, rfl, outstanding, fun _ => trivial⟩
  · exact follows_parsing _ outstanding
  · exact follows_calling _ _ outstanding
  · next resp close =>
      have started :
          ((Stage.responding resp close).move session).2.pending =
            [.write close] := by
        show session.pending ++ [.write close] = [.write close]
        rw [outstanding, List.nil_append]
      exact ⟨.writing close, rfl, started, False.elim⟩
  · exact ⟨.over, rfl, outstanding, False.elim⟩
  · exact ⟨.written false, rfl, outstanding, fun _ => trivial⟩
  · exact follows_reading whole outstanding
  · exact follows_reading whole outstanding
  · exact follows_reading whole outstanding
  · exact fits.elim

/-- A handler takes the operation that it belongs to, or there is none. -/
theorem begin_cases
    (completion : Completion)
    (outstanding : session.pending = phase.pending) :
    exec (.begin completion) session = (none, session) ∨
      (phase = .reading ∧
        exec (.begin completion) session =
            (some .read, { session with pending := [] }) ∧
        (completion = .readError ∨
          ∃ bytes, completion = .readOk bytes)) ∨
      ∃ close, phase = .writing close ∧
        exec (.begin completion) session =
            (some (.write close), { session with pending := [] }) ∧
        (completion = .writeError ∨ completion = .writeOk) := by
  cases phase with
  | reading =>
      cases completion <;>
        simp [exec, HttpSession.take, outstanding, Phase.pending,
          HttpSession.isRead, HttpSession.isWrite]
  | writing close =>
      cases completion <;>
        simp [exec, HttpSession.take, outstanding, Phase.pending,
          HttpSession.isRead, HttpSession.isWrite]
  | _ =>
      left
      cases completion <;>
        simp [exec, HttpSession.take, outstanding, Phase.pending]

/--
A handler whose operation is not outstanding returns; the others begin when
nobody is at work.
-/
theorem waiting_cases
    (callback : Option HttpCallback) (completion : Completion)
    (outstanding : session.pending = phase.pending) :
    (Stage.waiting callback completion).Follows session phase ∧
      (phase.pending ≠ [] ∨
        (Stage.waiting callback completion).move session =
            (.returned, session) ∧
          marksOfNext (Stage.waiting callback completion).code.nextCall
            session = []) := by
  have marks :
      marksOfNext (Stage.waiting callback completion).code.nextCall
          session =
        marksOf (.begin completion)
          (exec (.begin completion) session).1 :=
    rfl
  simp only [Follows, marks, move]
  rcases begin_cases completion outstanding with
    absent | ⟨rfl, taken, ends⟩ | ⟨close, rfl, taken, ends⟩
  · rw [absent]
    cases completion
    all_goals
      exact ⟨⟨phase, rfl, outstanding, False.elim⟩, Or.inr ⟨rfl, rfl⟩⟩
  · rw [taken]
    refine ⟨?_, Or.inl (List.cons_ne_nil _ _)⟩
    rcases ends with rfl | ⟨bytes, rfl⟩
    · exact ⟨.over, rfl, rfl, False.elim⟩
    · exact ⟨.received, rfl, rfl, fun _ => trivial⟩
  · rw [taken]
    refine ⟨?_, Or.inl (List.cons_ne_nil _ _)⟩
    rcases ends with rfl | rfl
    · exact ⟨.over, rfl, rfl, False.elim⟩
    · refine ⟨.written close, rfl, rfl, fun _ => ?_⟩
      cases close with
      | false => trivial
      | true => trivial

end Moves

end Stage

def enterStage (arrival : Arrival) : Stage :=
  .waiting arrival.1 arrival.2

abbrev stageStep :
    Pool Stage HttpSession → PoolEvent Arrival → Pool Stage HttpSession :=
  Pool.step enterStage Stage.move

/-! ## The invariant -/

/-- The handlers and the operations fit the phase. -/
structure Matches (pool : Pool Stage HttpSession) (phase : Phase) :
    Prop where
  outstanding : pool.world.pending = phase.pending
  fits :
    ∀ (index : Nat) (stage : Stage),
      pool.threads[index]? = some stage → stage.Active →
        stage.Fits phase
  alone : pool.AtMostOne Stage.Active

namespace Matches

variable {pool : Pool Stage HttpSession} {phase : Phase}

/-- While an operation is outstanding, no handler is at work. -/
theorem quiet
    (isMatch : Matches pool phase) (busy : phase.pending ≠ []) :
    pool.All fun stage => ¬ stage.Active := by
  intro index stage present active
  exact busy (Stage.pending_of_fits (isMatch.fits index stage present active))

theorem moved
    {index : Nat} {stage : Stage}
    (nobody : pool.NoOther index Stage.Active)
    (follows : stage.Follows pool.world phase) :
    ∃ later,
      phase.follow (marksOfNext stage.code.nextCall pool.world) =
          some later ∧
        Matches (pool.moved index (stage.move pool.world)) later := by
  rcases follows with ⟨later, followed, outstanding, fits⟩
  refine ⟨later, followed, outstanding, ?_, .of_noOther nobody _⟩
  intro other moved there active
  rcases Pool.getElem?_moved_cases there with ⟨-, rfl⟩ | ⟨different, old⟩
  · exact fits active
  · exact absurd active (nobody other moved different old)

/-- A handler that has returned changes nothing. -/
theorem settled
    (isMatch : Matches pool phase) (index : Nat) {stage : Stage}
    (inactive : ¬ stage.Active) :
    Matches (pool.moved index (stage, pool.world)) phase where
  outstanding := isMatch.outstanding
  fits := by
    intro other moved there active
    rcases Pool.getElem?_moved_cases there with ⟨-, rfl⟩ | ⟨-, old⟩
    · exact absurd active inactive
    · exact isMatch.fits other moved old active
  alone := isMatch.alone.moved fun active => absurd active inactive

/-- A move is a part of a path, and the pool fits where it leads. -/
theorem advance
    (isMatch : Matches pool phase) {index : Nat} {stage : Stage}
    (present : pool.threads[index]? = some stage) :
    ∃ later,
      phase.follow (marksOfNext stage.code.nextCall pool.world) =
          some later ∧
        Matches (pool.moved index (stage.move pool.world)) later := by
  by_cases active : stage.Active
  · exact moved (isMatch.alone index stage present active)
      (Stage.follows_of_fits (isMatch.fits index stage present active)
        isMatch.outstanding)
  · cases stage with
    | waiting callback completion =>
        rcases Stage.waiting_cases callback completion
            isMatch.outstanding with
          ⟨follows, busy | ⟨returns, silent⟩⟩
        · exact moved
            (fun other thread _ there =>
              isMatch.quiet busy other thread there) follows
        · rw [silent, returns]
          exact ⟨phase, rfl, isMatch.settled index id⟩
    | returned => exact ⟨phase, rfl, isMatch.settled index id⟩
    | threw exception => exact ⟨phase, rfl, isMatch.settled index id⟩
    | _ => exact absurd trivial active

/-- The same of every event. -/
theorem step
    (isMatch : Matches pool phase) (event : PoolEvent Arrival) :
    ∃ later,
      phase.follow (emit (pool.map Stage.code) event) = some later ∧
        Matches (stageStep pool event) later := by
  cases event with
  | arrive arrival =>
      refine ⟨phase, rfl, isMatch.outstanding, ?_, ?_⟩
      · intro index stage present active
        rcases Pool.getElem?_arrived_cases present with ⟨-, rfl⟩ | old
        · exact active.elim
        · exact isMatch.fits index stage old active
      · exact isMatch.alone.arrived id
  | advance index =>
      cases present : pool.threads[index]? with
      | none =>
          have silent :
              emit (pool.map Stage.code) (.advance index) = [] := by
            simp [emit, Pool.nextCall?, Pool.map, present, marksOfNext]
          rw [silent, stageStep,
            Pool.step_advance_of_none enterStage Stage.move present]
          exact ⟨phase, rfl, isMatch⟩
      | some stage =>
          have shown :
              emit (pool.map Stage.code) (.advance index) =
                marksOfNext stage.code.nextCall pool.world := by
            rw [emit, Pool.nextCall?_map present]
            rfl
          rw [shown, stageStep,
            Pool.step_advance_of_some enterStage Stage.move present]
          exact isMatch.advance present

end Matches

/-! ## Every run -/

/-- The new session, with the thread that will start its first read. -/
def acceptedStages : Pool Stage HttpSession :=
  { threads := [.reading]
    world := { buffer := .empty, pending := [], socketOpen := true } }

theorem matches_acceptedStages : Matches acceptedStages .idle where
  outstanding := rfl
  fits := by
    intro index stage present active
    simp only [acceptedStages, List.getElem?_singleton,
      Option.ite_none_right_eq_some, Option.some.injEq] at present
    rw [← present.2]
    trivial
  alone := by
    intro index stage present active other another different there both
    have first := (List.getElem?_eq_some_iff.mp present).1
    have second := (List.getElem?_eq_some_iff.mp there).1
    simp only [acceptedStages, List.length_singleton] at first second
    omega

/-- Every run is a path, and the pool fits where it leads. -/
theorem exists_matches (events : List (PoolEvent Arrival)) :
    ∃ pool,
      run step accepted events = pool.map Stage.code ∧
        ∃ phase,
          Phase.idle.follow (outputs step emit accepted events) =
              some phase ∧
            Matches pool phase := by
  have start : accepted = acceptedStages.map Stage.code := rfl
  have enters (arrival : Arrival) :
      enter arrival = (enterStage arrival).code :=
    rfl
  have sameState :
      run step accepted events =
        (run stageStep acceptedStages events).map Stage.code :=
    Pool.run_map enters Stage.move_code acceptedStages events
  have sameMarks :
      outputs step emit accepted events =
        outputs stageStep (fun pool event => emit (pool.map Stage.code) event)
          acceptedStages events :=
    Pool.outputs_map enters Stage.move_code emit acceptedStages
      events
  rw [sameState, sameMarks]
  refine ⟨_, rfl, ?_⟩
  apply run_outputs_invariant
    (fun pool marks =>
      ∃ phase, Phase.idle.follow marks = some phase ∧ Matches pool phase)
  · rintro pool marks event ⟨phase, followed, isMatch⟩
    rcases isMatch.step event with ⟨later, continued, fits⟩
    exact ⟨later,
      Phase.follow_append_eq_some_iff.mpr ⟨phase, followed, continued⟩,
      fits⟩
  · exact ⟨.idle, rfl, matches_acceptedStages⟩

/-- What holds in every state, and of all marks up to it. -/
structure IsStrand (pool : Pool Handler HttpSession)
    (marks : List Mark) : Prop where
  oneOperation : pool.world.pending.length ≤ 1
  oneHandler : pool.AtMostOne AtWork
  /-- while an operation is outstanding, no handler is at work -/
  exclusive :
    pool.world.pending ≠ [] → pool.All fun thread => ¬ AtWork thread
  /-- a handler that runs here, as it does alone, is one completion -/
  completes :
    ∀ callback completion,
      ((handler callback completion).run exec pool.world).2 =
        ((pool.world.complete callback completion).map Prod.fst).getD
          pool.world
  /-- between a dispatch and its response nothing happens -/
  responseNext :
    ∀ before req after, marks = before ++ .dispatch req :: after →
      after = [] ∨ after = [.thrown] ∨
        ∃ response close rest, after = .respond response close :: rest
  /-- each response is that of the request dispatched just before -/
  dispatchBefore :
    ∀ before response close after,
      marks = before ++ .respond response close :: after →
        ∃ earlier req, before = earlier ++ [.dispatch req]
  responses : marks.countP Phase.isRespond ≤ marks.count .readDone
  /-- an error, an exception or a close is the last thing there is -/
  ended :
    ∀ before mark after, marks = before ++ mark :: after →
      Phase.Ends mark → after = []

/--
However the handlers of a session are interleaved, and whatever completes,
the session is a strand.
-/
theorem session_isStrand (events : List (PoolEvent Arrival)) :
    IsStrand (run step accepted events)
      (outputs step emit accepted events) := by
  rcases exists_matches events with ⟨pool, state, phase, followed, isMatch⟩
  rw [state]
  have atWork {index : Nat} {thread : Handler}
      (present : (pool.map Stage.code).threads[index]? = some thread)
      (works : AtWork thread) :
      ∃ stage : Stage, pool.threads[index]? = some stage ∧ stage.Active := by
    simp only [Pool.map, List.getElem?_map, Option.map_eq_some_iff]
      at present
    rcases present with ⟨stage, there, rfl⟩
    exact ⟨stage, there, stage.atWork_code_iff.mp works⟩
  constructor
  · show pool.world.pending.length ≤ 1
    rw [isMatch.outstanding]
    exact phase.length_pending_le
  · intro index thread present works other another different there both
    rcases atWork present works with ⟨first, here, active⟩
    rcases atWork there both with ⟨second, elsewhere, alsoActive⟩
    exact isMatch.alone index first here active other second different
      elsewhere alsoActive
  · intro busy index thread present works
    rcases atWork present works with ⟨stage, here, active⟩
    have outstanding : pool.world.pending ≠ [] := busy
    rw [isMatch.outstanding] at outstanding
    exact isMatch.quiet outstanding index stage here active
  · intro callback completion
    exact run_handler callback completion _
  · intro before req after equal
    rw [equal] at followed
    exact Phase.after_dispatch followed
  · intro before response close after equal
    rw [equal] at followed
    exact Phase.before_respond followed
  · have counts := Phase.follow_counts followed
    have none : Phase.idle.unanswered = 0 := rfl
    omega
  · intro before mark after equal ends
    rw [equal] at followed
    exact Phase.eq_nil_of_ends followed ends

/-- A request that is read by one thread and answered by it. -/
example :
    (outputs step emit accepted
      [.advance 0, .arrive (none, .readOk (ascii "GET / HTTP/1.1\r\n\r\n")),
        .advance 1, .advance 1, .advance 1, .advance 1]).countP
          Phase.isRespond = 1 := by
  decide +kernel

end LightningServer.Net.Strand
