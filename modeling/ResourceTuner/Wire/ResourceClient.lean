import ResourceTuner.Wire.Deserialize

/-!
# Resource requests on the wire

`tuneResources` of `UrmAPIs.cpp` and the `FlatBuffEncoder` it writes with.  The encoder stops writing
when the buffer would be full and remembers that in its index, so that the caller can tell at the end
whether everything was written.

* **`FlatBuffEncoder`**, **`SysResource`**, **`tuneResources`** — the client;
* **`FlatBuffEncoder.Extends`** — a sane buffer holds all that was appended;
* **`deserialize_tuneResources`** — the server reads back what the client was given.
-/

namespace ResourceTuner

open ByteReader

/-- `MOD_RESTUNE`. -/
def MOD_RESTUNE : Byte := 0

/-! ## The encoder -/

/-- `class FlatBuffEncoder`; `mCurPtr` is an offset into the buffer. -/
structure FlatBuffEncoder where
  mBuffer : List Byte
  mCurPtr : Nat
  mRunningIndex : Int

namespace FlatBuffEncoder

def setBuf (buffer : List Byte) : FlatBuffEncoder := ⟨buffer, 0, 0⟩

/-- `append<T>` for a type of `n` bytes.  A full buffer is not written to again. -/
def append (e : FlatBuffEncoder) (n : Nat) (value : BitVec (8 * n)) : FlatBuffEncoder :=
  if e.mRunningIndex = -1 then e
  else if e.mRunningIndex + n < REQ_BUFFER_SIZE then
    { mBuffer := e.mBuffer.take e.mCurPtr ++ encode n value ++ e.mBuffer.drop (e.mCurPtr + n)
      mCurPtr := e.mCurPtr + n
      mRunningIndex := e.mRunningIndex + n }
  else { e with mRunningIndex := REQ_BUFFER_SIZE }

def isBufSane (e : FlatBuffEncoder) : Bool := decide (e.mRunningIndex < REQ_BUFFER_SIZE)

/-- The buffer holds these bytes, and zeros from the index on. -/
structure Holds (e : FlatBuffEncoder) (bytes : List Byte) : Prop where
  buffer : e.mBuffer = bytes ++ List.replicate (REQ_BUFFER_SIZE - bytes.length) 0
  ptr : e.mCurPtr = bytes.length
  index : e.mRunningIndex = bytes.length
  room : bytes.length < REQ_BUFFER_SIZE

/-- From `e` to `e'` the bytes were appended, unless the buffer is no longer sane. -/
def Extends (e e' : FlatBuffEncoder) (bytes : List Byte) : Prop :=
  e'.isBufSane → e.isBufSane ∧ ∀ held, e.Holds held → e'.Holds (held ++ bytes)

theorem holds_setBuf : (setBuf (List.replicate REQ_BUFFER_SIZE 0)).Holds [] :=
  ⟨rfl, rfl, rfl, by decide⟩

theorem Extends.refl (e : FlatBuffEncoder) : Extends e e [] :=
  fun h => ⟨h, fun held hheld => by rwa [List.append_nil]⟩

theorem Extends.trans {e e' e'' : FlatBuffEncoder} {bytes bytes' : List Byte}
    (h : Extends e e' bytes) (h' : Extends e' e'' bytes') : Extends e e'' (bytes ++ bytes') := by
  intro hsane
  obtain ⟨hsane', hholds'⟩ := h' hsane
  obtain ⟨hsane'', hholds⟩ := h hsane'
  refine ⟨hsane'', fun held hheld => ?_⟩
  rw [← List.append_assoc]
  exact hholds' _ (hholds held hheld)

/-- One word.  A buffer that was full stays so. -/
theorem extends_append (e : FlatBuffEncoder) (n : Nat) (value : BitVec (8 * n)) :
    Extends e (e.append n value) (encode n value) := by
  intro hsane
  have hsane' : e.isBufSane = true := by
    by_contra hfull
    simp only [isBufSane, decide_eq_true_eq] at hfull
    simp only [append] at hsane
    split at hsane
    · omega
    split at hsane
    · omega
    · simp [isBufSane] at hsane
  refine ⟨hsane', fun held hheld => ?_⟩
  have hindex : e.mRunningIndex ≠ -1 := by
    rw [hheld.index]
    omega
  simp only [append, if_neg hindex] at hsane ⊢
  split at hsane
  · rename_i hroom
    rw [if_pos hroom]
    rw [hheld.index] at hroom
    have hlength : (held ++ encode n value).length = held.length + n := by simp
    refine ⟨?_, ?_, ?_, ?_⟩
    · simp only [hheld.buffer, hheld.ptr, List.take_left, hlength]
      rw [← List.drop_drop, List.drop_left, List.drop_replicate]
      congr 2
      omega
    · simp only [hheld.ptr, hlength]
    · simp only [hheld.index, hlength]
      push_cast
      rfl
    · rw [hlength]
      omega
  · simp [isBufSane] at hsane

end FlatBuffEncoder

/-! ## The client -/

/-- `SysResource`.  The union is its two members; which one is read depends on the count. -/
structure SysResource where
  mResCode : BitVec 32
  mResInfo : BitVec 32
  mOptionalInfo : BitVec 32
  mNumValues : BitVec 32
  value : BitVec 32
  values : Nat → BitVec 32

namespace SysResource

/-- The `j`-th value that is sent. -/
def valueAt (r : SysResource) (j : Nat) : BitVec 32 :=
  if r.mNumValues.toInt = 1 then r.value else r.values j

/-- The loop over the values from the `j`-th on. -/
def appendValues (r : SysResource) : Nat → Nat → FlatBuffEncoder → FlatBuffEncoder
  | 0, _, batch => batch
  | left + 1, j, batch => r.appendValues left (j + 1) (batch.append 4 (r.values j))

/-- The body of the loop over the resources, `none` where a `VALIDATE` macro throws. -/
def append (r : SysResource) (batch : FlatBuffEncoder) : Option FlatBuffEncoder :=
  if r.mResCode.toNat = 0 then none
  else if r.mResInfo.toInt < 0 then none
  else if r.mOptionalInfo.toInt < 0 then none
  else if r.mNumValues.toInt ≤ 0 then none
  else
    let batch := (((batch.append 4 r.mResCode).append 4 r.mResInfo).append 4
      r.mOptionalInfo).append 4 r.mNumValues
    if r.mNumValues.toInt = 1 then some (batch.append 4 r.value)
    else some (r.appendValues r.mNumValues.toInt.toNat 0 batch)

end SysResource

/-- The loop over the resources from the `i`-th on. -/
def appendResources (resourceList : Nat → SysResource) :
    Nat → Nat → FlatBuffEncoder → Option FlatBuffEncoder
  | 0, _, batch => some batch
  | left + 1, i, batch =>
    match (resourceList i).append batch with
    | none => none
    | some batch => appendResources resourceList left (i + 1) batch

/-- `maxResPerReq`. -/
def maxResPerReq : Int := 20

/-- The process that calls the API. -/
structure ClientProcess where
  pid : BitVec 32
  tid : BitVec 32

/-- `tuneResources`: the buffer that is sent, if one is. -/
def tuneResources (client : ClientProcess) (duration : BitVec 64) (properties numRes : BitVec 32)
    (resourceList : Option (Nat → SysResource)) : Option (List Byte) :=
  match resourceList with
  | none => none
  | some list =>
    if numRes.toInt ≤ 0 ∨ duration.toInt = 0 ∨ duration.toInt < -1 then none
    else if numRes.toInt > maxResPerReq then none
    else if properties.toInt < 0 then none
    else
      let batch := FlatBuffEncoder.setBuf (List.replicate REQ_BUFFER_SIZE 0)
      let batch := ((batch.append 1 MOD_RESTUNE).append 1
        RequestType.REQ_RESOURCE_TUNING.toByte).append 8 0
      let batch := (((batch.append 8 duration).append 4 numRes).append 4 properties).append 4
        client.pid
      match appendResources list numRes.toInt.toNat 0 (batch.append 4 client.tid) with
      | none => none
      | some batch => if batch.isBufSane then some batch.mBuffer else none

/-! ## What is sent -/

/-- The bytes of the values from the `j`-th on. -/
def valuesBytes (value : Nat → BitVec 32) : Nat → Nat → List Byte
  | 0, _ => []
  | left + 1, j => encode 4 (value j) ++ valuesBytes value left (j + 1)

def SysResource.bytes (r : SysResource) : List Byte :=
  encode 4 r.mResCode ++ (encode 4 r.mResInfo ++ (encode 4 r.mOptionalInfo ++
    (encode 4 r.mNumValues ++ valuesBytes r.valueAt r.mNumValues.toInt.toNat 0)))

def resourcesBytes (resourceList : Nat → SysResource) : Nat → Nat → List Byte
  | 0, _ => []
  | left + 1, i => (resourceList i).bytes ++ resourcesBytes resourceList left (i + 1)

/-- The header of a resource request. -/
def headerBytes (client : ClientProcess) (type : RequestType) (handle duration : BitVec 64)
    (numRes properties : BitVec 32) : List Byte :=
  encode 1 MOD_RESTUNE ++ (encode 1 type.toByte ++ (encode 8 handle ++ (encode 8 duration ++
    (encode 4 numRes ++ (encode 4 properties ++ (encode 4 client.pid ++ encode 4 client.tid))))))

section Sent

open FlatBuffEncoder

theorem extends_appendValues (r : SysResource) (left j : Nat) (batch : FlatBuffEncoder) :
    Extends batch (r.appendValues left j batch) (valuesBytes r.values left j) := by
  induction left generalizing j batch with
  | zero => exact .refl batch
  | succ left ih => exact (extends_append batch 4 (r.values j)).trans (ih (j + 1) _)

theorem valuesBytes_congr {value value' : Nat → BitVec 32} (left j : Nat)
    (h : ∀ k, j ≤ k → k < j + left → value k = value' k) :
    valuesBytes value left j = valuesBytes value' left j := by
  induction left generalizing j with
  | zero => rfl
  | succ left ih =>
    rw [valuesBytes, valuesBytes, h j (by omega) (by omega),
      ih (j + 1) fun k hk hk' => h k (by omega) (by omega)]

/-- A resource that passes its checks is sent as a whole. -/
theorem extends_resource {r : SysResource} {batch batch' : FlatBuffEncoder}
    (h : r.append batch = some batch') : Extends batch batch' r.bytes := by
  simp only [SysResource.append] at h
  split at h
  · cases h
  split at h
  · cases h
  split at h
  · cases h
  split at h
  · cases h
  have hwords := ((extends_append batch 4 r.mResCode).trans
    ((extends_append _ 4 r.mResInfo).trans ((extends_append _ 4 r.mOptionalInfo).trans
      (extends_append _ 4 r.mNumValues))))
  have hbytes : r.bytes = (encode 4 r.mResCode ++ (encode 4 r.mResInfo ++
      (encode 4 r.mOptionalInfo ++ encode 4 r.mNumValues))) ++
        valuesBytes r.valueAt r.mNumValues.toInt.toNat 0 := by
    simp only [SysResource.bytes, List.append_assoc]
  rw [hbytes]
  split at h
  · rename_i hone
    cases h
    refine hwords.trans ?_
    have hvalue : valuesBytes r.valueAt r.mNumValues.toInt.toNat 0 = encode 4 r.value := by
      rw [hone]
      simp [valuesBytes, SysResource.valueAt, hone]
    rw [hvalue]
    exact extends_append _ 4 r.value
  · rename_i hmany
    cases h
    refine hwords.trans ?_
    have hvalues : valuesBytes r.valueAt r.mNumValues.toInt.toNat 0 =
        valuesBytes r.values r.mNumValues.toInt.toNat 0 :=
      valuesBytes_congr _ _ fun k _ _ => if_neg hmany
    rw [hvalues]
    exact extends_appendValues r _ 0 _

theorem extends_appendResources {list : Nat → SysResource} {left i : Nat}
    {batch batch' : FlatBuffEncoder} (h : appendResources list left i batch = some batch') :
    Extends batch batch' (resourcesBytes list left i) := by
  induction left generalizing i batch with
  | zero =>
    cases h
    exact .refl _
  | succ left ih =>
    simp only [appendResources] at h
    split at h
    · cases h
    · rename_i hresource
      exact (extends_resource hresource).trans (ih h)

/-- The buffer that is sent: the header, the resources, and zeros. -/
theorem eq_of_tuneResources {client : ClientProcess} {duration : BitVec 64}
    {properties numRes : BitVec 32} {resourceList : Option (Nat → SysResource)} {buf : List Byte}
    (h : tuneResources client duration properties numRes resourceList = some buf) :
    ∃ list zeros, resourceList = some list ∧
      buf = headerBytes client .REQ_RESOURCE_TUNING 0 duration numRes properties ++
        (resourcesBytes list numRes.toInt.toNat 0 ++ zeros) ∧
      buf.length = REQ_BUFFER_SIZE := by
  unfold tuneResources at h
  split at h
  · cases h
  rename_i list
  split at h
  · cases h
  split at h
  · cases h
  split at h
  · cases h
  simp only at h
  split at h
  · cases h
  rename_i batch hbatch
  split at h
  · rename_i hsane
    cases h
    have hextends := ((extends_append _ 1 MOD_RESTUNE).trans
      ((extends_append _ 1 RequestType.REQ_RESOURCE_TUNING.toByte).trans
        ((extends_append _ 8 0).trans ((extends_append _ 8 duration).trans
          ((extends_append _ 4 numRes).trans ((extends_append _ 4 properties).trans
            ((extends_append _ 4 client.pid).trans (extends_append _ 4 client.tid)))))))).trans
      (extends_appendResources hbatch)
    have hholds := (hextends hsane).2 [] holds_setBuf
    rw [List.nil_append] at hholds
    refine ⟨list, List.replicate (REQ_BUFFER_SIZE - (headerBytes client .REQ_RESOURCE_TUNING 0
      duration numRes properties ++ resourcesBytes list numRes.toInt.toNat 0).length) 0, rfl, ?_, ?_⟩
    · rw [hholds.buffer, ← List.append_assoc]
      rfl
    · have := hholds.room
      rw [hholds.buffer, List.length_append, List.length_replicate]
      omega
  · cases h

end Sent

/-! ## What is read back -/

/-- The server's resource says what the client's said. -/
structure Carries (sys : SysResource) (r : Resource) : Prop where
  resCode : r.mResCode = sys.mResCode
  resInfo : r.mResInfo = sys.mResInfo
  optionalInfo : r.mOptionalInfo = sys.mOptionalInfo.toInt
  numValues : r.getValuesCount = sys.mNumValues.toInt
  values : ∀ j : Nat, j < sys.mNumValues.toInt → r.getValueAt j = (sys.valueAt j).toInt

/-- The loop of `setValueAt` calls. -/
def fillValues (value : Nat → BitVec 32) : Nat → Nat → Resource → Resource
  | 0, _, resource => resource
  | left + 1, j, resource =>
    fillValues value left (j + 1) (resource.setValueAt j (value j).toInt)

section ReadBack

variable {w : Workspace RawRequest}

theorem getValueAt_setValueAt (r : Resource) (j k : Nat) (value : Int) (hj : j < r.mNumValues) :
    (r.setValueAt j value).getValueAt k = if k = j then value else r.getValueAt k := by
  have hin : ¬ ((j : Int) < 0 ∨ (j : Int) ≥ r.mNumValues) := by omega
  have hlength := r.values_length
  simp only [Resource.setValueAt, if_neg hin, Resource.getValueAt, Int.toNat_natCast]
  by_cases hk : k = j
  · subst hk
    rw [if_neg hin, if_pos rfl, List.getD_eq_getElem?_getD, List.getElem?_set_self (by omega)]
    rfl
  · rw [if_neg hk]
    split
    · rfl
    · rw [List.getD_eq_getElem?_getD, List.getD_eq_getElem?_getD,
        List.getElem?_set_ne (Ne.symm hk)]

theorem setValueAt_fields (r : Resource) (j value : Int) :
    (r.setValueAt j value).mResCode = r.mResCode ∧ (r.setValueAt j value).mResInfo = r.mResInfo ∧
      (r.setValueAt j value).mOptionalInfo = r.mOptionalInfo ∧
      (r.setValueAt j value).mNumValues = r.mNumValues := by
  unfold Resource.setValueAt
  split <;> exact ⟨rfl, rfl, rfl, rfl⟩

theorem fillValues_fields (value : Nat → BitVec 32) (left j : Nat) (r : Resource) :
    (fillValues value left j r).mResCode = r.mResCode ∧
      (fillValues value left j r).mResInfo = r.mResInfo ∧
      (fillValues value left j r).mOptionalInfo = r.mOptionalInfo ∧
      (fillValues value left j r).mNumValues = r.mNumValues := by
  induction left generalizing j r with
  | zero => exact ⟨rfl, rfl, rfl, rfl⟩
  | succ left ih =>
    obtain ⟨h₁, h₂, h₃, h₄⟩ := ih (j + 1) (r.setValueAt j (value j).toInt)
    obtain ⟨g₁, g₂, g₃, g₄⟩ := setValueAt_fields r j (value j).toInt
    exact ⟨h₁.trans g₁, h₂.trans g₂, h₃.trans g₃, h₄.trans g₄⟩

/-- Each value of the loop is found at its place; the others are as before. -/
theorem getValueAt_fillValues (value : Nat → BitVec 32) (left j k : Nat) (r : Resource)
    (hbound : (j + left : Int) ≤ r.mNumValues) :
    (fillValues value left j r).getValueAt k =
      if j ≤ k ∧ k < j + left then (value k).toInt else r.getValueAt k := by
  induction left generalizing j r with
  | zero =>
    rw [if_neg (by omega)]
    rfl
  | succ left ih =>
    rw [fillValues, ih (j + 1) _ (by rw [(setValueAt_fields r j _).2.2.2]; push_cast at hbound ⊢; omega),
      getValueAt_setValueAt r j k _ (by push_cast at hbound; omega)]
    by_cases hk : k = j
    · subst hk
      rw [if_neg (by omega), if_pos rfl, if_pos (by omega)]
    · rw [if_neg hk]
      split
      · rw [if_pos (by omega)]
      · rw [if_neg (by omega)]

theorem readValues_encode (value : Nat → BitVec 32) (left j : Nat) (r : Resource)
    (tail : List Byte) :
    readValues true left j r ⟨valuesBytes value left j ++ tail, w⟩ =
      .ok (fillValues value left j r) ⟨tail, w⟩ := by
  induction left generalizing j r with
  | zero => rfl
  | succ left ih =>
    rw [readValues, valuesBytes, List.append_assoc, bind_ok (read_encode 4 (value j) _ _)]
    exact ih (j + 1) _

theorem getBlock_of_granted (hw : Granted w) (kind : BlockKind) (rest : List Byte) :
    ∃ block w', getBlock kind ⟨rest, w⟩ = .ok block ⟨rest, w'⟩ ∧ Granted w' ∧
      w'.object = w.object := by
  refine ⟨⟨kind, w.pool.asked⟩, { w with pool := (w.pool.getBlock kind).2 }, ?_,
    Pool.granted_getBlock hw kind, rfl⟩
  simp only [getBlock, Pool.getBlock_of_granted hw]

theorem allocateValues_of_granted (hw : Granted w) (numValues : Int) (rest : List Byte) :
    ∃ w', allocateValues numValues ⟨rest, w⟩ = .ok true ⟨rest, w'⟩ ∧ Granted w' ∧
      w'.object = w.object := by
  unfold allocateValues
  split
  · refine ⟨{ w with pool := w.pool.ask }, ?_, hw, rfl⟩
    simp only [allocate, Pool.answer, hw w.pool.asked]
  · exact ⟨w, rfl, hw, rfl⟩

theorem addResource_of_granted (hw : Granted w) (node : RawNode) (rest : List Byte) :
    ∃ list w', addResource node ⟨rest, w⟩ = .ok () ⟨rest, w'⟩ ∧ Granted w' ∧
      w'.object = { w.object with mResourceList := some (list, w.object.nodes ++ [node]) } := by
  cases hlist : w.object.mResourceList with
  | some entry =>
    refine ⟨entry.1, { w with
      object := { w.object with mResourceList := some (entry.1, w.object.nodes ++ [node]) } }, ?_,
      hw, rfl⟩
    simp only [addResource, hlist, assign, update, RawRequest.nodes, Option.map_some,
      Option.getD_some]
  | none =>
    refine ⟨⟨.DLManager, w.pool.asked⟩, ⟨_, (w.pool.getBlock .DLManager).2⟩, ?_,
      Pool.granted_getBlock hw _, rfl⟩
    simp only [addResource, hlist, Pool.getBlock_of_granted hw, RawRequest.nodes, Option.map_none,
      Option.getD_none, List.nil_append]

/-- One resource. -/
theorem readResource_encode (hw : Granted w) (sys : SysResource) (tail : List Byte) :
    ∃ list node w', readResource ⟨sys.bytes ++ tail, w⟩ = .ok () ⟨tail, w'⟩ ∧ Granted w' ∧
      Carries sys node.mData ∧
      w'.object = { w.object with mResourceList := some (list, w.object.nodes ++ [node]) } := by
  obtain ⟨node, w₁, h₁, hw₁, ho₁⟩ := getBlock_of_granted hw .ResIterable (sys.bytes ++ tail)
  obtain ⟨block, w₂, h₂, hw₂, ho₂⟩ := getBlock_of_granted hw₁ .Resource (sys.bytes ++ tail)
  obtain ⟨w₃, h₃, hw₃, ho₃⟩ := allocateValues_of_granted hw₂ sys.mNumValues.toInt
    (valuesBytes sys.valueAt sys.mNumValues.toInt.toNat 0 ++ tail)
  let mData := fillValues sys.valueAt sys.mNumValues.toInt.toNat 0
    ((Resource.ofValues sys.mResCode sys.mResInfo sys.mOptionalInfo.toInt []).setNumValues
      sys.mNumValues.toInt)
  obtain ⟨list, w₄, h₄, hw₄, ho₄⟩ := addResource_of_granted hw₃ ⟨node, block, mData⟩ tail
  refine ⟨list, ⟨node, block, mData⟩, w₄, ?_, hw₄, ?_, ?_⟩
  · rw [readResource, bind_ok h₁, bind_ok h₂]
    simp only [SysResource.bytes, List.append_assoc]
    rw [bind_ok (read_encode 4 sys.mResCode _ _), bind_ok (read_encode 4 sys.mResInfo _ _),
      bind_ok (read_encode 4 sys.mOptionalInfo _ _), bind_ok (read_encode 4 sys.mNumValues _ _),
      bind_ok h₃, bind_ok (readValues_encode _ _ _ _ _)]
    exact h₄
  · obtain ⟨hcode, hinfo, hoptional, hcount⟩ := fillValues_fields sys.valueAt
      sys.mNumValues.toInt.toNat 0 ((Resource.ofValues sys.mResCode sys.mResInfo
        sys.mOptionalInfo.toInt []).setNumValues sys.mNumValues.toInt)
    refine ⟨hcode, hinfo, hoptional, hcount, fun j hj => ?_⟩
    have hvalue := getValueAt_fillValues sys.valueAt sys.mNumValues.toInt.toNat 0 j
      ((Resource.ofValues sys.mResCode sys.mResInfo sys.mOptionalInfo.toInt []).setNumValues
        sys.mNumValues.toInt) (by simp only [Resource.setNumValues]; omega)
    rwa [if_pos (by omega)] at hvalue
  · simp only [ho₄, ho₃, ho₂, ho₁]

/-- All resources, in their order. -/
theorem readResources_encode (hw : Granted w) (list : Nat → SysResource) (left i : Nat)
    (tail : List Byte) :
    ∃ added w', readResources left ⟨resourcesBytes list left i ++ tail, w⟩ = .ok () ⟨tail, w'⟩ ∧
      w'.object = { w.object with mResourceList := w'.object.mResourceList } ∧
      w'.object.resources = w.object.resources ++ added ∧ added.length = left ∧
      ∀ k r, added[k]? = some r → Carries (list (i + k)) r := by
  induction left generalizing i w with
  | zero => exact ⟨[], w, rfl, rfl, (List.append_nil _).symm, rfl, fun k r h => by cases h⟩
  | succ left ih =>
    obtain ⟨dl, node, w₁, h₁, hw₁, hcarries, ho₁⟩ := readResource_encode hw (list i)
      (resourcesBytes list left (i + 1) ++ tail)
    obtain ⟨added, w₂, h₂, ho₂, hresources, hlength, hadded⟩ := ih hw₁ (i + 1)
    refine ⟨node.mData :: added, w₂, ?_, ?_, ?_, by simp [hlength], fun k r h => ?_⟩
    · rw [readResources, resourcesBytes, List.append_assoc, bind_ok h₁]
      exact h₂
    · rw [ho₂, ho₁]
    · rw [hresources, ho₁]
      simp [RawRequest.resources, RawRequest.nodes]
    · cases k with
      | zero =>
        obtain rfl : node.mData = r := by simpa using h
        exact hcarries
      | succ k =>
        have := hadded k r (by simpa using h)
        rwa [show i + (k + 1) = i + 1 + k by omega]

/-- What the server has read is what the client was given. -/
structure ReadBack (client : ClientProcess) (duration : BitVec 64) (properties numRes : BitVec 32)
    (list : Nat → SysResource) (request : RawRequest) : Prop where
  type : request.mReqType = RequestType.REQ_RESOURCE_TUNING.toByte
  duration : request.mDuration = duration.toInt
  properties : request.mProperties = properties
  pid : request.mClientPID = client.pid.toInt
  tid : request.mClientTID = client.tid.toInt
  count : (request.resources.length : Int) = numRes.toInt
  resources : ∀ i r, request.resources[i]? = some r → Carries (list i) r

/-- **A resource request survives the wire**: whatever `tuneResources` sends, the server reads it back,
if its allocations succeed. -/
theorem deserialize_tuneResources {client : ClientProcess} {duration : BitVec 64}
    {properties numRes : BitVec 32} {resourceList : Option (Nat → SysResource)} {buf : List Byte}
    (hsent : tuneResources client duration properties numRes resourceList = some buf) {pool : Pool}
    (hpool : pool.Granted) :
    ∃ list rest w, resourceList = some list ∧ buf.length = REQ_BUFFER_SIZE ∧
      Request.deserialize ⟨buf, ⟨.new, pool⟩⟩ = .ok () ⟨rest, w⟩ ∧
      ReadBack client duration properties numRes list w.object := by
  obtain ⟨list, zeros, hlist, hbuf, hlength⟩ := eq_of_tuneResources hsent
  have hnum : 0 < numRes.toInt := by
    rw [hlist] at hsent
    simp only [tuneResources] at hsent
    split at hsent
    · cases hsent
    · omega
  -- the object after the header
  let header : RawRequest := ⟨RequestType.REQ_RESOURCE_TUNING.toByte, (0 : BitVec 64).toInt,
    duration.toInt, properties, client.pid.toInt, client.tid.toInt, none⟩
  obtain ⟨added, w, hread, hobject, hresources, hadded, hcarries⟩ :=
    readResources_encode (w := ⟨header, pool⟩) hpool list numRes.toInt.toNat 0 zeros
  refine ⟨list, zeros, w, hlist, hlength, ?_, ?_⟩
  · rw [hbuf, headerBytes]
    simp only [List.append_assoc]
    rw [Request.deserialize, bind_ok (read_encode 1 MOD_RESTUNE _ _),
      bind_ok (read_encode 1 RequestType.REQ_RESOURCE_TUNING.toByte _ _), assign_bind,
      bind_ok (read_encode 8 0 _ _), assign_bind, bind_ok (read_encode 8 duration _ _), assign_bind,
      bind_ok (read_encode 4 numRes _ _), bind_ok (read_encode 4 properties _ _), assign_bind,
      bind_ok (read_encode 4 client.pid _ _), assign_bind,
      bind_ok (read_encode 4 client.tid _ _), assign_bind, if_pos rfl]
    exact hread
  · have hall : w.object.resources = added := by
      rw [hresources]
      rfl
    rw [hobject] at hall ⊢
    refine ⟨rfl, rfl, rfl, rfl, rfl, ?_, ?_⟩
    · rw [hall, hadded]
      omega
    · intro i r h
      rw [hall] at h
      simpa using hcarries i r h

end ReadBack

/-- One value and three values. -/
theorem deserialize_tuneResources_sample :
    ∃ buf rest w,
      tuneResources ⟨10, 11⟩ 5000 1 2 (some fun i =>
        if i = 0 then ⟨65536, 0, 0, 1, 7, fun _ => 0⟩ else ⟨65537, 256, 0, 3, 0, fun j => j⟩) =
          some buf ∧
      Request.deserialize ⟨buf, ⟨.new, .fresh fun _ => true⟩⟩ = .ok () ⟨rest, w⟩ ∧
      ReadBack ⟨10, 11⟩ 5000 1 2 (fun i =>
        if i = 0 then ⟨65536, 0, 0, 1, 7, fun _ => 0⟩ else ⟨65537, 256, 0, 3, 0, fun j => j⟩)
        w.object := by
  obtain ⟨buf, hbuf⟩ := Option.isSome_iff_exists.mp (show (tuneResources ⟨10, 11⟩ 5000 1 2
    (some fun i => if i = 0 then ⟨65536, 0, 0, 1, 7, fun _ => 0⟩
      else ⟨65537, 256, 0, 3, 0, fun j => j⟩)).isSome by decide +kernel)
  have hgranted : (Pool.fresh fun _ => true).Granted := fun _ => rfl
  obtain ⟨list, rest, w, hlist, -, hread, hback⟩ := deserialize_tuneResources hbuf hgranted
  cases hlist
  exact ⟨buf, rest, w, hbuf, hread, hback⟩

end ResourceTuner
