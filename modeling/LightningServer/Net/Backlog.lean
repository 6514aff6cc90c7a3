import LightningServer.Net.MachineBuffer

/-!
# Storage and backlog

The storage grows to the end of a request that does not fit, counted from the
write index, so bytes that are already consumed stay in it.  There are fewer
of them than the request has, or the request would fit.  Hence the storage is
bounded by the readable bytes and the lengths of the requests, however much
has passed through the buffer, along every run in which the sum of no request
wraps.
-/

namespace LightningServer.Net

open LightningServer.Foundation

/-! ## Requests for space -/

/-- A call of `append` or `ensureWritableBytes`. -/
structure SpaceRequest where
  /-- the readable bytes at the time of the call -/
  backlog : Nat
  /-- the length that is passed -/
  length : Nat
deriving DecidableEq

/-- The length that an operation passes to `ensureWritableBytes`. -/
def askedLength : BufferOp → Option Nat
  | .append data => some data.length
  | .ensureWritableBytes len => some len.toNat
  | _ => none

def requestsOf (state : Paired) (op : BufferOp) : List SpaceRequest :=
  (askedLength op).toList.map fun len =>
    { backlog := state.raw.readableBytes.toNat, length := len }

/-- The requests of a run on a fresh buffer. -/
def spaceRequests (limit : Nat) (ops : List BufferOp) :
    List SpaceRequest :=
  Transition.outputs (Paired.step limit) requestsOf .fresh ops

def largest (measure : SpaceRequest → Nat)
    (requests : List SpaceRequest) : Nat :=
  (requests.map measure).foldr max 0

theorem largest_append
    (measure : SpaceRequest → Nat) (first second : List SpaceRequest) :
    largest measure (first ++ second) =
      max (largest measure first) (largest measure second) := by
  induction first with
  | nil => exact (Nat.zero_max _).symm
  | cons request rest induction =>
      show max (measure request) (largest measure (rest ++ second)) = _
      rw [induction, ← Nat.max_assoc]
      rfl

/-- The initial size, or the largest backlog and two of the largest lengths. -/
def backlogBound (requests : List SpaceRequest) : Nat :=
  max Buffer.kInitialSize
    (largest SpaceRequest.backlog requests +
      2 * largest SpaceRequest.length requests)

theorem backlogBound_le_append (first second : List SpaceRequest) :
    backlogBound first ≤ backlogBound (first ++ second) := by
  simp only [backlogBound, largest_append]
  omega

theorem le_backlogBound_concat
    (requests : List SpaceRequest) (request : SpaceRequest) :
    request.backlog + 2 * request.length ≤
      backlogBound (requests ++ [request]) := by
  have single (measure : SpaceRequest → Nat) :
      largest measure [request] = measure request :=
    Nat.max_zero _
  simp only [backlogBound, largest_append, single]
  omega

/-! ## One operation -/

/-- Only a request changes the size of the storage. -/
theorem Buffer.length_operate_storage (buf : Buffer) (op : BufferOp) :
    (buf.operate op).2.storage.length =
      match askedLength op with
      | none => buf.storage.length
      | some len => (buf.ensureWritableBytes len).storage.length := by
  cases op with
  | append data => exact buf.length_append_storage data
  | retrieve len => exact congrArg List.length (buf.storage_retrieve _)
  | retrieveAll => rfl
  | retrieveAsString len =>
      exact congrArg List.length (buf.storage_retrieve _)
  | retrieveAllAsString =>
      exact congrArg List.length (buf.storage_retrieve _)
  | ensureWritableBytes len => rfl
  | write data =>
      rw [Buffer.operate]
      split
      · next fits => exact buf.length_copyToWrite_storage data fits
      · rfl

section Steps

variable {limit : Nat} {state : Paired}

/-- The storage stays as it is, or is that of a buffer after a request. -/
theorem storage_step
    (limitFits : limit < 2 ^ 63) (sound : state.Sound) {op : BufferOp}
    (allowed : Allowed state op) (noWrap : NoWrap state op) :
    (state.step limit op).raw.storage.length =
        state.raw.storage.length ∨
      ∃ buf len, Represents buf state.raw ∧ askedLength op = some len ∧
        (state.step limit op).raw.storage.length =
          (buf.ensureWritableBytes len).storage.length := by
  rcases sound with ⟨buf, same, -⟩
  rw [Paired.step]
  rcases same.operate limitFits allowed noWrap with
    ⟨exception, throws, -⟩ | ⟨later, returns, sameLater⟩
  · rw [throws]
    exact Or.inl rfl
  · rw [returns]
    have grown := buf.length_operate_storage op
    rw [← sameLater.storage] at grown
    cases asked : askedLength op with
    | none =>
        rw [asked] at grown
        exact Or.inl (grown.trans (congrArg List.length same.storage).symm)
    | some len =>
        rw [asked] at grown
        exact Or.inr ⟨buf, len, same, rfl, grown⟩

/-- A request without a wrap keeps the storage or lets it grow. -/
theorem storage_le_step
    (limitFits : limit < 2 ^ 63) (sound : state.Sound) {op : BufferOp}
    (allowed : Allowed state op) (noWrap : NoWrap state op) :
    state.raw.storage.length ≤
      (state.step limit op).raw.storage.length := by
  rcases storage_step limitFits sound allowed noWrap with
    kept | ⟨buf, len, same, -, grown⟩
  · exact kept.ge
  · rw [grown, same.storage]
    exact buf.length_le_length_ensureWritableBytes_storage len

/-- A request that wraps shrinks it. -/
theorem step_lt_storage
    (sound : state.Sound) {op : BufferOp} (wraps : ¬ NoWrap state op) :
    (state.step limit op).raw.storage.length <
      state.raw.storage.length := by
  cases op with
  | ensureWritableBytes len =>
      rcases sound with ⟨buf, same, -⟩
      have bounded := buf.write_le_size
      rcases same.ensureWritableBytes_wraps limit wraps with
        ⟨later, returns, -, shrunk⟩
      have step :
          (state.step limit (.ensureWritableBytes len)).raw = later := by
        simp only [Paired.step, MachineBuffer.operate, returns]
        rfl
      rw [same.writeIndex] at shrunk
      rw [step, same.storage]
      exact shrunk.trans_le bounded
  | _ => exact absurd trivial wraps

theorem storage_le_step_iff
    (limitFits : limit < 2 ^ 63) (sound : state.Sound) {op : BufferOp}
    (allowed : Allowed state op) :
    state.raw.storage.length ≤
        (state.step limit op).raw.storage.length ↔
      NoWrap state op := by
  constructor
  · intro keeps
    by_contra wraps
    exact absurd (step_lt_storage sound wraps) (Nat.not_lt.mpr keeps)
  · exact storage_le_step limitFits sound allowed

/-- The bound of the requests so far is kept. -/
theorem step_le_backlogBound
    (limitFits : limit < 2 ^ 63) (sound : state.Sound) {op : BufferOp}
    (allowed : Allowed state op) (noWrap : NoWrap state op)
    {requests : List SpaceRequest}
    (within : state.raw.storage.length ≤ backlogBound requests) :
    (state.step limit op).raw.storage.length ≤
      backlogBound (requests ++ requestsOf state op) := by
  have earlier :
      state.raw.storage.length ≤
        backlogBound (requests ++ requestsOf state op) :=
    within.trans (backlogBound_le_append _ _)
  rcases storage_step limitFits sound allowed noWrap with
    kept | ⟨buf, len, same, asked, grown⟩
  · exact kept.trans_le earlier
  · let request : SpaceRequest :=
      { backlog := buf.readableBytes, length := len }
    have made : requestsOf state op = [request] := by
      rw [requestsOf, asked, same.readableBytes]
      rfl
    rw [made, same.storage] at earlier
    rw [made, grown]
    exact (buf.length_ensureWritableBytes_storage_le len).trans
      (max_le earlier (le_backlogBound_concat requests request))

end Steps

/-! ## Runs -/

/--
The storage never shrinks along the run, and after each of its operations it
is within the bound of the requests that have been made.
-/
structure FollowsBacklog (limit : Nat) (ops : List BufferOp) : Prop where
  keeps :
    Transition.Along (Paired.step limit)
      (fun state op =>
        state.raw.storage.length ≤
          (state.step limit op).raw.storage.length)
      .fresh ops
  within :
    ∀ count,
      (Transition.run (Paired.step limit) .fresh
          (ops.take count)).raw.storage.length ≤
        backlogBound (spaceRequests limit (ops.take count))

theorem storage_le_backlogBound
    {limit : Nat} (limitFits : limit < 2 ^ 63) {ops : List BufferOp}
    (allowed :
      Transition.Along (Paired.step limit) Allowed .fresh ops)
    (noWrap : Transition.Along (Paired.step limit) NoWrap .fresh ops) :
    (Transition.run (Paired.step limit) .fresh ops).raw.storage.length ≤
      backlogBound (spaceRequests limit ops) := by
  have initial :
      Paired.fresh.raw.storage.length ≤ backlogBound [] := by
    show (List.replicate Buffer.kInitialSize 0).length ≤ _
    rw [List.length_replicate]
    exact le_max_left _ _
  have both :=
    Transition.run_outputs_invariant_along
      (fun state requests =>
        state.Sound ∧ state.raw.storage.length ≤ backlogBound requests)
      (fun state requests op holds guarded =>
        ⟨sound_step limitFits holds.1 guarded.1 guarded.2,
          step_le_backlogBound limitFits holds.1 guarded.1 guarded.2
            holds.2⟩)
      ⟨sound_fresh, initial⟩ (allowed.and noWrap)
  exact both.2

/--
Along a run of allowed operations from a fresh buffer, the storage follows
the backlog if and only if the sum of no request wraps.
-/
theorem follows_backlog_iff
    {limit : Nat} (limitFits : limit < 2 ^ 63) {ops : List BufferOp}
    (allowed :
      Transition.Along (Paired.step limit) Allowed .fresh ops) :
    FollowsBacklog limit ops ↔
      Transition.Along (Paired.step limit) NoWrap .fresh ops := by
  have sizes :
      Transition.Along (Paired.step limit)
          (fun state op =>
            state.raw.storage.length ≤
              (state.step limit op).raw.storage.length)
          .fresh ops ↔
        Transition.Along (Paired.step limit) NoWrap .fresh ops :=
    Transition.along_iff Paired.Sound
      (fun _ _ sound allowed =>
        storage_le_step_iff limitFits sound allowed)
      (fun _ _ sound allowed noWrap =>
        sound_step limitFits sound allowed noWrap)
      sound_fresh allowed
  constructor
  · intro follows
    exact sizes.mp follows.keeps
  · intro noWrap
    refine ⟨sizes.mpr noWrap, fun count => ?_⟩
    exact storage_le_backlogBound limitFits (allowed.take count)
      (noWrap.take count)

theorem follows_backlog_of_growing :
    FollowsBacklog (2 ^ 20) growingRun :=
  (follows_backlog_iff (by decide) (by decide +kernel)).mpr
    (by decide +kernel)

/-- One byte, and a request for all that a `size_t` can count. -/
theorem backlog_not_followed_by_wrap :
    Transition.Along (Paired.step (2 ^ 20)) Allowed .fresh wrappingRun ∧
      ¬ FollowsBacklog (2 ^ 20) wrappingRun := by
  refine ⟨by decide +kernel, ?_⟩
  intro follows
  exact absurd follows.keeps (by decide +kernel)

end LightningServer.Net
