import LightningServer.Net.HttpSessionReads

/-!
# The size of a session's buffer

`Buffer` declares a greatest size and never looks at it.  The storage grows
when a read does not fit in the free bytes, in front of the readable ones and
behind them, and it never shrinks.  Bytes that do not make a request are kept,
so a peer that never ends its header block makes it grow with every read.
-/

namespace LightningServer.Net

open LightningServer.Foundation.Framing
open LightningServer.Net.HttpParser

/-! ## What changes the storage -/

/-- The parser only moves the indices. -/
theorem HttpParser.storage_parse (buf : Buffer) (req : HttpRequest) :
    (parse buf req).2.1.storage = buf.storage := by
  rw [parse]
  split
  · rfl
  · dsimp only
    split
    · exact buf.storage_retrieve _
    · split
      · exact buf.storage_retrieve _
      · split
        · exact buf.storage_retrieve _
        · split
          · exact buf.storage_retrieve _
          · exact (Buffer.storage_retrieve _ _).trans
              (buf.storage_retrieve _)

theorem HttpParser.writeIndex_parse_le
    (buf : Buffer) (req : HttpRequest) :
    (parse buf req).2.1.writeIndex ≤ buf.writeIndex := by
  rw [parse]
  split
  · exact Nat.le_refl _
  · dsimp only
    split
    · exact buf.writeIndex_retrieve_le _
    · split
      · exact buf.writeIndex_retrieve_le _
      · split
        · exact buf.writeIndex_retrieve_le _
        · split
          · exact buf.writeIndex_retrieve_le _
          · exact (Buffer.writeIndex_retrieve_le _ _).trans
              (buf.writeIndex_retrieve_le _)

namespace HttpSession

open Buffer (kMaxSize)

/-! ## What a completion does to the storage -/

/-- A read appends its bytes, whatever it leads to. -/
theorem storage_onRead
    (callback : Option HttpCallback) (session : HttpSession)
    (bytes : Bytes) :
    (onRead callback session bytes).1.buffer.storage =
      (session.buffer.append bytes).storage := by
  rw [(onRead_frame callback session bytes).1, storage_parse]

/-- The bytes of a read fit in the free ones, or end within the bound. -/
def Room (session : HttpSession) : SessionStep → Prop
  | (_, .readOk bytes) =>
      bytes.length ≤
          session.buffer.writableBytes + session.buffer.prependableBytes ∨
        session.buffer.writeIndex + bytes.length ≤ kMaxSize
  | _ => True

instance (session : HttpSession) :
    ∀ step, Decidable (session.Room step)
  | (_, .readOk _) => inferInstanceAs (Decidable (_ ∨ _))
  | (_, .readError) => .isTrue trivial
  | (_, .writeOk) => .isTrue trivial
  | (_, .writeError) => .isTrue trivial

/-- The length of the storage after a read. -/
theorem length_storage_readOk
    {session next : HttpSession} {callback : Option HttpCallback}
    {bytes : Bytes} {events : List SessionEvent}
    (done :
      session.complete callback (.readOk bytes) = some (next, events)) :
    next.buffer.storage.length =
      if session.buffer.writableBytes + session.buffer.prependableBytes <
          bytes.length then
        session.buffer.writeIndex + bytes.length
      else session.buffer.storage.length := by
  rcases complete_readOk_cases done with ⟨pending, ran⟩
  have appended :=
    storage_onRead callback { session with pending := pending } bytes
  rw [ran] at appended
  rw [appended]
  exact (Buffer.length_append_storage session.buffer bytes).trans
    (session.buffer.length_ensureWritableBytes_storage bytes.length)

/-- A step that leaves the storage within the bound is one with room. -/
theorem room_of_bounded
    {session next : HttpSession} {step : SessionStep}
    {events : List SessionEvent}
    (done : session.complete step.1 step.2 = some (next, events))
    (bounded : next.buffer.storage.length ≤ kMaxSize) :
    session.Room step := by
  rcases step with ⟨callback, bytes | _ | _ | _⟩
  · have grown := length_storage_readOk done
    rw [Room]
    split at grown
    · exact Or.inr (by omega)
    · exact Or.inl (by omega)
  · trivial
  · trivial
  · trivial

/-- A step with room keeps the bound. -/
theorem bounded_of_room
    {session next : HttpSession} {step : SessionStep}
    {events : List SessionEvent}
    (done : session.complete step.1 step.2 = some (next, events))
    (room : session.Room step)
    (bounded : session.buffer.storage.length ≤ kMaxSize) :
    next.buffer.storage.length ≤ kMaxSize := by
  rcases step with ⟨callback, completion⟩
  rcases complete_cases done with
    ⟨pending, ⟨bytes, rfl, ran⟩ | ⟨close, rfl, ran⟩ | ⟨-, rfl, -⟩⟩
  · have grown := length_storage_readOk done
    rw [Room] at room
    split at grown
    · rw [grown]
      omega
    · rw [grown]
      exact bounded
  · rw [onWrite] at ran
    split at ran
    · cases ran
      exact bounded
    · cases ran
      exact bounded
  · exact bounded

/-! ## Along a run -/

/-- In every state of the run the storage is within the bound. -/
def Bounded (steps : List SessionStep) : Prop :=
  ∀ count ≤ steps.length, ∀ reached ∈ start.run (steps.take count),
    reached.1.buffer.storage.length ≤ kMaxSize

/-- Every step of the run finds room in the state before it. -/
def RoomThroughout (steps : List SessionStep) : Prop :=
  ∀ count < steps.length, ∀ reached ∈ start.run (steps.take count),
    ∀ step ∈ steps[count]?, reached.1.Room step

instance (steps : List SessionStep) : Decidable (RoomThroughout steps) :=
  inferInstanceAs (Decidable (∀ count < steps.length, _))

/-- A run of one step more. -/
theorem run_take_succ
    {steps : List SessionStep} {count : Nat} {step : SessionStep}
    (next : steps[count]? = some step) {reached : HttpSession}
    {events : List SessionEvent} :
    start.run (steps.take (count + 1)) = some (reached, events) ↔
      ∃ before earlier now,
        start.run (steps.take count) = some (before, earlier) ∧
          before.complete step.1 step.2 = some (reached, now) ∧
            events = earlier ++ now := by
  rw [List.take_add_one, next, Option.toList_some, run_append_eq_some_iff]
  constructor
  · rintro ⟨before, earlier, later, ran, single, rfl⟩
    rcases run_cons_eq_some_iff.mp single with
      ⟨last, now, rest, done, ended, rfl⟩
    cases ended
    exact ⟨before, earlier, now, ran, done, by simp⟩
  · rintro ⟨before, earlier, now, ran, done, rfl⟩
    exact ⟨before, earlier, now, ran,
      run_cons_eq_some_iff.mpr ⟨reached, now, [], done, rfl, by simp⟩, rfl⟩

/-- A run that can be delivered can be delivered up to every step. -/
theorem exists_run_take
    {steps : List SessionStep}
    (delivered : (start.run steps).isSome = true) (count : Nat) :
    ∃ reached events,
      start.run (steps.take count) = some (reached, events) := by
  rcases Option.isSome_iff_exists.mp delivered with ⟨⟨final, events⟩, ran⟩
  rw [← List.take_append_drop count steps] at ran
  rcases run_append_eq_some_iff.mp ran with
    ⟨middle, earlier, later, front, -, -⟩
  exact ⟨middle, earlier, front⟩

theorem bounded_of_roomThroughout
    {steps : List SessionStep} (room : RoomThroughout steps) :
    Bounded steps := by
  intro count
  induction count with
  | zero =>
      intro _ reached ran
      cases Option.mem_def.mp ran
      show (List.replicate Buffer.kInitialSize 0).length ≤ kMaxSize
      rw [List.length_replicate]
      decide
  | succ count induction =>
      rintro inside ⟨reached, events⟩ ran
      have isNext : steps[count]? = some steps[count] :=
        List.getElem?_eq_getElem inside
      rcases (run_take_succ isNext).mp ran with
        ⟨before, earlier, now, front, done, -⟩
      exact bounded_of_room done (room count inside _ front _ isNext)
        (induction (Nat.le_of_succ_le inside) _ front)

/-- The bytes that a step brings. -/
def bytesRead : SessionStep → Nat
  | (_, .readOk bytes) => bytes.length
  | _ => 0

theorem writeIndex_complete_le
    {session next : HttpSession} {step : SessionStep}
    {events : List SessionEvent}
    (done : session.complete step.1 step.2 = some (next, events)) :
    next.buffer.writeIndex ≤
      session.buffer.writeIndex + bytesRead step := by
  rcases step with ⟨callback, completion⟩
  rcases complete_cases done with
    ⟨pending, ⟨bytes, rfl, ran⟩ | ⟨close, rfl, ran⟩ | ⟨-, rfl, -⟩⟩
  · have parsed :=
      (onRead_frame callback { session with pending := pending } bytes).1
    rw [ran] at parsed
    rw [parsed]
    exact (writeIndex_parse_le _ _).trans
      (session.buffer.writeIndex_append_le bytes)
  · rw [onWrite] at ran
    split at ran
    · cases ran
      exact Nat.le_add_right _ _
    · cases ran
      exact Nat.zero_le _
  · exact Nat.le_add_right _ _

theorem writeIndex_run_le
    {session reached : HttpSession} {steps : List SessionStep}
    {events : List SessionEvent}
    (ran : session.run steps = some (reached, events)) :
    reached.buffer.writeIndex ≤
      session.buffer.writeIndex + (steps.map bytesRead).sum := by
  induction steps generalizing session events with
  | nil =>
      cases ran
      exact Nat.le_refl _
  | cons step rest induction =>
      rcases run_cons_eq_some_iff.mp ran with
        ⟨next, now, later, done, continued, -⟩
      have here := writeIndex_complete_le done
      have there := induction continued
      rw [List.map_cons, List.sum_cons]
      omega

/-- A peer that sends no more than the bound in all does not exceed it. -/
theorem bounded_of_bytesRead
    {steps : List SessionStep}
    (few : (steps.map bytesRead).sum ≤ kMaxSize) :
    Bounded steps := by
  apply bounded_of_roomThroughout
  rintro count inside ⟨reached, events⟩ ran ⟨callback, completion⟩ isNext
  cases completion with
  | readOk bytes =>
      right
      show reached.buffer.writeIndex + bytes.length ≤ kMaxSize
      have before := writeIndex_run_le ran
      have split :
          steps =
            steps.take count ++
              (callback, .readOk bytes) :: steps.drop (count + 1) := by
        rw [List.getElem?_eq_getElem inside, Option.mem_some_iff] at isNext
        rw [← isNext, List.getElem_cons_drop, List.take_append_drop]
      rw [split] at few
      simp only [List.map_append, List.map_cons, List.sum_append,
        List.sum_cons, bytesRead] at few
      have nothing : start.buffer.writeIndex = 0 := rfl
      omega
  | _ => trivial

/--
The storage stays within the bound along a run exactly when every read finds
room in the state before it.
-/
theorem storage_bounded_iff
    {steps : List SessionStep}
    (delivered : (start.run steps).isSome = true) :
    Bounded steps ↔ RoomThroughout steps := by
  constructor
  · rintro bounded count inside ⟨before, earlier⟩ ran step isNext
    rcases exists_run_take delivered (count + 1) with ⟨next, events, later⟩
    rcases (run_take_succ isNext).mp later with
      ⟨same, _, now, again, done, -⟩
    rw [Option.mem_def.mp ran] at again
    cases again
    exact room_of_bounded done (bounded (count + 1) inside _ later)
  · exact bounded_of_roomThroughout

/-- Without a carriage return everything that is read is kept. -/
theorem storage_of_unended
    (delivered : List (Option HttpCallback × Bytes))
    (clean : carriageReturn ∉ (delivered.map Prod.snd).flatten) :
    ∃ final,
      start.run (deliveries delivered) = some (final, []) ∧
        (delivered.map Prod.snd).flatten.length ≤
          final.buffer.storage.length := by
  have found :
      ((delivered.map Prod.snd).flatten ++ dblcrlf).dropInfix? dblcrlf =
        some ((delivered.map Prod.snd).flatten, []) := by
    have skipped := dropInfix?_skip clean
      (show dblcrlf.dropInfix? dblcrlf = some ([], []) by decide +kernel)
    rwa [List.append_nil] at skipped
  rcases run_deliveries_unterminated found reading_start delivered
      (by simp) (by simp) with
    ⟨final, ran, -, kept⟩
  refine ⟨final, ran, ?_⟩
  rw [readable_start, List.nil_append] at kept
  rw [← kept, Buffer.readable]
  exact (List.length_take_le' _ _).trans (by simp)

/--
A long body in three reads: the second fits when the bytes are moved to the
front, the third makes the storage grow.
-/
def longBody : List SessionStep :=
  [(none,
      .readOk (ascii "POST / HTTP/1.1\r\nContent-Length: 2000\r\n\r\n" ++
        List.replicate 950 97)),
    (none, .readOk (List.replicate 50 97)),
    (none, .readOk (List.replicate 1000 97))]

/-- The indices and the length of the storage after a run. -/
def indicesAfter (steps : List SessionStep) : Option (Nat × Nat × Nat) :=
  (start.run steps).map fun reached =>
    (reached.1.buffer.readIndex, reached.1.buffer.writeIndex,
      reached.1.buffer.storage.length)

theorem storage_bounded_of_longBody :
    indicesAfter (longBody.take 1) = some (41, 991, 1024) ∧
      indicesAfter (longBody.take 2) = some (0, 1000, 1024) ∧
      indicesAfter longBody = some (0, 2000, 2000) ∧
      Bounded longBody :=
  ⟨by decide +kernel, by decide +kernel, by decide +kernel,
    (storage_bounded_iff (by decide +kernel)).mpr (by decide +kernel)⟩

/-- 8193 reads of 8192 bytes each, none of them the end of a line. -/
def unendedReads : List (Option HttpCallback × Bytes) :=
  List.replicate 8193 (none, List.replicate 8192 97)

theorem flatten_unendedReads :
    (unendedReads.map Prod.snd).flatten =
      List.replicate (8193 * 8192) 97 := by
  rw [unendedReads, List.map_replicate, List.flatten_replicate_replicate]

theorem storage_unbounded :
    (start.run (deliveries unendedReads)).isSome = true ∧
      ¬ Bounded (deliveries unendedReads) := by
  have clean :
      carriageReturn ∉ (unendedReads.map Prod.snd).flatten := by
    rw [flatten_unendedReads, List.mem_replicate]
    rintro ⟨-, equal⟩
    exact absurd equal (by decide)
  rcases storage_of_unended unendedReads clean with ⟨final, ran, grown⟩
  rw [flatten_unendedReads, List.length_replicate] at grown
  refine ⟨Option.isSome_of_eq_some ran, ?_⟩
  intro bounded
  have within := bounded _ (Nat.le_refl _) (final, [])
    (by rwa [List.take_length])
  exact absurd (grown.trans within) (by decide)

end HttpSession

end LightningServer.Net
