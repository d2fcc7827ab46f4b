import ResourceTuner.Wire.Deserialize

/-!
# What `Signal::deserialize` reads

The reader is a parser of one layout: two bytes, the code and the type, the handle and the duration,
two strings, four words, and as many arguments as the first of these words says.

* `SignalMessage` — the fields of the layout;
* `deserialize_bytes` — a message is read as its fields;
* `bytes_of_deserialize` — what is read well is a message.
-/

namespace ResourceTuner

open ByteReader

/-- The fields of a message in the order in which they are read. -/
structure SignalMessage where
  moduleID : Byte
  type : Byte
  signalCode : BitVec 32
  signalType : BitVec 32
  handle : BitVec 64
  duration : BitVec 64
  appName : List Byte
  scenario : List Byte
  numArgs : BitVec 32
  properties : BitVec 32
  pid : BitVec 32
  tid : BitVec 32
  args : List (BitVec 32)

namespace SignalMessage

variable {message : SignalMessage}

/-- From the handle on. -/
def body (message : SignalMessage) : List Byte :=
  encode 8 message.handle ++ (encode 8 message.duration ++ (message.appName ++ 0 ::
    (message.scenario ++ 0 :: (encode 4 message.numArgs ++ (encode 4 message.properties ++
      (encode 4 message.pid ++ (encode 4 message.tid ++ message.args.flatMap (encode 4))))))))

def bytes (message : SignalMessage) : List Byte :=
  encode 1 message.moduleID ++ (encode 1 message.type ++ (encode 4 message.signalCode ++
    (encode 4 message.signalType ++ message.body)))

/-- The signal that is filled from it. -/
def object (message : SignalMessage) (list : Block) : RawSignal where
  mReqType := message.type
  mSignalCode := message.signalCode
  mSignalType := message.signalType
  mHandle := message.handle.toInt
  mDuration := message.duration.toInt
  mAppName := message.appName
  mScenario := message.scenario
  mNumArgs := message.numArgs.toInt
  mProperties := message.properties
  mClientPID := message.pid.toInt
  mClientTID := message.tid.toInt
  mListArgs := some (list, message.args)

/-- The strings hold no zero byte, and the count is that of the arguments. -/
structure WellFormed (message : SignalMessage) : Prop where
  appName : 0 ∉ message.appName
  scenario : 0 ∉ message.scenario
  count : message.numArgs.toInt = message.args.length

end SignalMessage

theorem readArgs_flatMap {args : List (BitVec 32)} {n : Nat} (hn : n = args.length)
    (tail : List Byte) (w : Workspace RawSignal) :
    readArgs n ⟨args.flatMap (encode 4) ++ tail, w⟩ = .ok args ⟨tail, w⟩ := by
  subst hn
  induction args with
  | nil => rfl
  | cons arg args ih =>
    rw [List.length_cons, readArgs, List.flatMap_cons, List.append_assoc,
      bind_ok (read_encode 4 arg _ _), bind_ok ih]
    rfl

theorem rest_of_readArgs {n : Nat} {args : List (BitVec 32)} {s s' : Input (Workspace RawSignal)}
    (h : readArgs n s = .ok args s') :
    s.rest = args.flatMap (encode 4) ++ s'.rest ∧ args.length = n ∧ s'.store = s.store := by
  induction n generalizing args s with
  | zero =>
    cases h
    exact ⟨rfl, rfl, rfl⟩
  | succ n ih =>
    obtain ⟨arg, s₁, harg, h⟩ := bind_eq_ok h
    obtain ⟨others, s₂, hothers, h⟩ := bind_eq_ok h
    cases h
    have hfirst := rest_of_read harg
    have hothers := ih hothers
    refine ⟨?_, congrArg (· + 1) hothers.2.1, hothers.2.2.trans hfirst.2⟩
    rw [hfirst.1, hothers.1, List.flatMap_cons, List.append_assoc]

/-! ## Reading a message -/

section Allocations

variable {grants : Nat → Bool} {rest : List Byte} {object : RawSignal}

theorem allocateOrThrow_granted {n : Nat} {taken : List Block} (h : grants n = true) :
    (allocateOrThrow : Deserializer RawSignal Unit) ⟨rest, ⟨object, ⟨grants, n, taken, []⟩⟩⟩ =
      .ok () ⟨rest, ⟨object, ⟨grants, n + 1, taken, []⟩⟩⟩ := by
  simp only [allocateOrThrow, allocate, bind, EStateM.bind, Pool.answer, h, if_true]
  rfl

theorem getBlock_granted {n : Nat} (h : grants n = true) :
    (getBlock .ArgVector : Deserializer RawSignal Block) ⟨rest, ⟨object, ⟨grants, n, [], []⟩⟩⟩ =
      .ok ⟨.ArgVector, n⟩ ⟨rest, ⟨object, ⟨grants, n + 1, [⟨.ArgVector, n⟩], []⟩⟩⟩ := by
  simp only [getBlock, Pool.getBlock, Pool.answer, h, if_true]
  rfl

end Allocations

/-- A message is read as its fields, whatever follows it. -/
theorem deserialize_bytes {message : SignalMessage} (h : message.WellFormed) {grants : Nat → Bool}
    (hgrants : ∀ n < 4, grants n = true) (tail : List Byte) :
    ∃ pool, Signal.deserialize ⟨message.bytes ++ tail, ⟨.new, .fresh grants⟩⟩ =
      .ok () ⟨tail, ⟨message.object ⟨.ArgVector, 2⟩, pool⟩⟩ := by
  have hcount : message.numArgs.toInt.toNat = message.args.length := by
    rw [h.count, Int.toNat_natCast]
  refine ⟨⟨grants, 4, [⟨.ArgVector, 2⟩], []⟩, ?_⟩
  simp only [SignalMessage.bytes, SignalMessage.body, List.append_assoc, List.cons_append]
  rw [Signal.deserialize, Pool.fresh, bind_ok (read_encode 1 message.moduleID _ _),
    bind_ok (read_encode 1 message.type _ _), assign_bind,
    bind_ok (read_encode 4 message.signalCode _ _), assign_bind,
    bind_ok (read_encode 4 message.signalType _ _), assign_bind,
    bind_ok (read_encode 8 message.handle _ _), assign_bind,
    bind_ok (read_encode 8 message.duration _ _), assign_bind,
    bind_ok (readString_append h.appName _ _),
    bind_ok (allocateOrThrow_granted (hgrants 0 (by omega))), assign_bind,
    bind_ok (readString_append h.scenario _ _),
    bind_ok (allocateOrThrow_granted (hgrants 1 (by omega))), assign_bind,
    bind_ok (read_encode 4 message.numArgs _ _), assign_bind,
    bind_ok (read_encode 4 message.properties _ _), assign_bind,
    bind_ok (read_encode 4 message.pid _ _), assign_bind,
    bind_ok (read_encode 4 message.tid _ _), assign_bind,
    bind_ok (getBlock_granted (hgrants 2 (by omega))), assign_bind]
  split
  · rename_i hneg
    rw [h.count] at hneg
    omega
  · rw [bind_ok (allocateOrThrow_granted (hgrants 3 (by omega))),
      bind_ok (readArgs_flatMap hcount tail _)]
    rfl

/-! ## What was read -/

theorem bind_assign {τ α : Type} (change : τ → τ) (f : Unit → Deserializer τ α)
    (s : Input (Workspace τ)) : (assign change >>= f) s =
      f () { s with store := { s.store with object := change s.store.object } } := rfl

/-- An allocation reads nothing and leaves the signal as it is. -/
theorem rest_of_allocateOrThrow {s s' : Input (Workspace RawSignal)}
    (h : (allocateOrThrow : Deserializer RawSignal Unit) s = .ok () s') :
    s.rest = s'.rest ∧ s'.store.object = s.store.object := by
  obtain ⟨granted, s₁, h₁, h₂⟩ := bind_eq_ok h
  cases h₁
  split at h₂
  · cases h₂
    exact ⟨rfl, rfl⟩
  · cases h₂

theorem rest_of_getBlock {kind : BlockKind} {block : Block} {s s' : Input (Workspace RawSignal)}
    (h : (getBlock kind : Deserializer RawSignal Block) s = .ok block s') :
    s.rest = s'.rest ∧ s'.store.object = s.store.object := by
  simp only [getBlock] at h
  split at h
  · cases h
    exact ⟨rfl, rfl⟩
  · cases h

/-- A signal that was read well stood in the memory as a message with its fields. -/
theorem bytes_of_deserialize {s s' : Input (Workspace RawSignal)}
    (h : Signal.deserialize s = .ok () s') :
    ∃ message : SignalMessage, message.WellFormed ∧ s.rest = message.bytes ++ s'.rest ∧
      ∃ list, s'.store.object = message.object list := by
  unfold Signal.deserialize at h
  obtain ⟨moduleID, s₁, h₁, h⟩ := bind_eq_ok h
  obtain ⟨type, s₂, h₂, h⟩ := bind_eq_ok h
  rw [bind_assign] at h
  obtain ⟨signalCode, s₃, h₃, h⟩ := bind_eq_ok h
  rw [bind_assign] at h
  obtain ⟨signalType, s₄, h₄, h⟩ := bind_eq_ok h
  rw [bind_assign] at h
  obtain ⟨handle, s₅, h₅, h⟩ := bind_eq_ok h
  rw [bind_assign] at h
  obtain ⟨duration, s₆, h₆, h⟩ := bind_eq_ok h
  rw [bind_assign] at h
  obtain ⟨appName, s₇, h₇, h⟩ := bind_eq_ok h
  obtain ⟨_, s₈, h₈, h⟩ := bind_eq_ok h
  rw [bind_assign] at h
  obtain ⟨scenario, s₉, h₉, h⟩ := bind_eq_ok h
  obtain ⟨_, s₁₀, h₁₀, h⟩ := bind_eq_ok h
  rw [show s₁₀ = ⟨s₁₀.rest, s₁₀.store⟩ from rfl, assign_bind] at h
  obtain ⟨numArgs, s₁₁, h₁₁, h⟩ := bind_eq_ok h
  rw [show s₁₁ = ⟨s₁₁.rest, s₁₁.store⟩ from rfl, assign_bind] at h
  obtain ⟨properties, s₁₂, h₁₂, h⟩ := bind_eq_ok h
  rw [show s₁₂ = ⟨s₁₂.rest, s₁₂.store⟩ from rfl, assign_bind] at h
  obtain ⟨pid, s₁₃, h₁₃, h⟩ := bind_eq_ok h
  rw [show s₁₃ = ⟨s₁₃.rest, s₁₃.store⟩ from rfl, assign_bind] at h
  obtain ⟨tid, s₁₄, h₁₄, h⟩ := bind_eq_ok h
  rw [show s₁₄ = ⟨s₁₄.rest, s₁₄.store⟩ from rfl, assign_bind] at h
  obtain ⟨list, s₁₅, h₁₅, h⟩ := bind_eq_ok h
  rw [show s₁₅ = ⟨s₁₅.rest, s₁₅.store⟩ from rfl, assign_bind] at h
  split at h
  · cases h
  rename_i hnonneg
  obtain ⟨_, s₁₆, h₁₆, h⟩ := bind_eq_ok h
  obtain ⟨args, s₁₇, h₁₇, h⟩ := bind_eq_ok h
  cases h
  have r₁ := rest_of_read h₁
  have r₂ := rest_of_read h₂
  have r₃ := rest_of_read h₃
  have r₄ := rest_of_read h₄
  have r₅ := rest_of_read h₅
  have r₆ := rest_of_read h₆
  have r₇ := rest_of_readString h₇
  have r₈ := rest_of_allocateOrThrow h₈
  have r₉ := rest_of_readString h₉
  have r₁₀ := rest_of_allocateOrThrow h₁₀
  have r₁₁ := rest_of_read h₁₁
  have r₁₂ := rest_of_read h₁₂
  have r₁₃ := rest_of_read h₁₃
  have r₁₄ := rest_of_read h₁₄
  have r₁₅ := rest_of_getBlock h₁₅
  have r₁₆ := rest_of_allocateOrThrow h₁₆
  have r₁₇ := rest_of_readArgs h₁₇
  refine ⟨⟨moduleID, type, signalCode, signalType, handle, duration, appName, scenario, numArgs,
    properties, pid, tid, args⟩, ⟨r₇.2.1, r₉.2.1, ?_⟩, ?_, list, ?_⟩
  · rw [r₁₇.2.1]
    exact (Int.toNat_of_nonneg (not_lt.mp hnonneg)).symm
  · simp only [SignalMessage.bytes, SignalMessage.body, List.append_assoc, List.cons_append]
    rw [r₁.1, r₂.1, r₃.1, r₄.1, r₅.1, r₆.1, r₇.1, r₈.1, r₉.1, r₁₀.1, r₁₁.1, r₁₂.1, r₁₃.1,
      r₁₄.1, r₁₅.1, r₁₆.1, r₁₇.1]
  · -- every field was assigned on the way
    simp only [SignalMessage.object, r₁.2, r₂.2, r₃.2, r₄.2, r₅.2, r₆.2, r₇.2.2, r₈.2, r₉.2.2,
      r₁₀.2, r₁₁.2, r₁₂.2, r₁₃.2, r₁₄.2, r₁₅.2, r₁₆.2, r₁₇.2.2]

end ResourceTuner
