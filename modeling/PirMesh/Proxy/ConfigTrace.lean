import Mathlib.Data.BitVec
import PirMesh.Proxy.FilterList

/-! # Proxy — What a configuration PDU touches (`app_proxy.c`)

The same dispatch as in `FilterList`, with what it reads and which places of the lists it
uses: an offset into the PDU for each byte that is read, and for each place that is
written what the search before it was for.  The state it leaves is that of
`proxyConfigDispatch` (`configTrace_state`).

Every place is one that the search has found (`Used.Found`).  What the PDU says is taken
as it comes: a filter type that is neither of the two is stored, and the number of
addresses is computed in a byte that wraps.  `ConfigPdu.Ok` is exactly when a PDU does
no harm (`safe_iff`). -/

namespace PirMesh

open Nor Slots Run

/-- A PDU from its network header on: the memory at `p`, and `len`. -/
structure ConfigPdu where
  p : ℕ → Byte
  len : Byte

/-- `p_nw->data` -/
def offsetData : ℕ := 9

/-- `p_str->para` -/
def offsetPara : ℕ := 10

def ConfigPdu.opcode (c : ConfigPdu) : Byte := c.p offsetData

def ConfigPdu.para (c : ConfigPdu) : ℕ → Byte := fun i => c.p (offsetPara + i)

/-- A place `list_data[idx]` that is written, in the list as it was, and what was searched. -/
structure Used where
  list : ListMag
  value : Adr
  idx : ℕ

/-- The search has found the place. -/
def Used.Found (u : Used) : Prop := ∃ h : u.idx < maxListLen, u.list.listData ⟨u.idx, h⟩ = u.value

/-- The loop over `idx`: `MAX_LIST_LEN` when no place has the value. -/
def searchIdx (value : Adr) (l : ListMag) : ℕ :=
  (List.finRange maxListLen).findIdx fun i => l.listData i = value

/-- `list_data[idx] = src`; a place behind the array is not in the list. -/
def ListMag.write (l : ListMag) (idx : ℕ) (src : Adr) : Fin maxListLen → Adr := fun i =>
  if i.val = idx then src else l.listData i

/-- `add_data_to_list` with the place it writes. -/
def addTrace (src : Adr) (l : ListMag) : ListMag × List Used :=
  if findDataInList src l then (l, [])
  else if getListCnt l ≥ maxListLen then (l, [])
  else
    let idx := searchIdx 0 l
    if idx ≠ maxListLen then (⟨l.write idx src, BitArray.set l.listIdx idx⟩, [⟨l, 0, idx⟩])
    else (l, [])

/-- `delete_data_from_list` with the place it writes. -/
def deleteTrace (src : Adr) (l : ListMag) : ListMag × List Used :=
  if !findDataInList src l then (l, [])
  else if getListCnt l ≤ 0 then (l, [])
  else
    let idx := searchIdx src l
    if idx ≠ maxListLen then (⟨l.write idx 0, BitArray.clear l.listIdx idx⟩, [⟨l, src, idx⟩])
    else (l, [])

/-- What a call leaves, the offsets it reads and the places it writes. -/
structure Trace (σ : Type) where
  state : σ
  reads : List ℕ
  used : List Used

/-- The loop over the addresses, `trace` being the call for one. -/
def addressLoop (trace : Adr → ListMag → ListMag × List Used) (c : ConfigPdu) (l : ListMag) :
    Trace ListMag :=
  (List.range ((c.len - 18).toNat / 2)).foldl (fun t i =>
    let proxyUnicast := c.para (2 * i) ++ c.para (2 * i + 1)
    let r := trace proxyUnicast t.state
    ⟨r.1, t.reads ++ [offsetPara + 2 * i, offsetPara + (2 * i + 1)], t.used ++ r.2⟩) ⟨l, [], []⟩

def configTrace (m : ProxyMag) (c : ConfigPdu) : Trace ProxyMag :=
  let pListDst := getFilterPointer m.filterType
  if c.opcode &&& 0x3f = proxyFilterSetType then
    let m := { m with filterType := c.para 0 }
    ⟨m.setList (getFilterPointer m.filterType) .zero, [offsetData, offsetPara], []⟩
  else if c.opcode &&& 0x3f = proxyFilterAddAdr then
    let t := addressLoop addTrace c (m.list pListDst)
    ⟨m.setList pListDst t.state, offsetData :: t.reads, t.used⟩
  else if c.opcode &&& 0x3f = proxyFilterRmAdr then
    let t := addressLoop deleteTrace c (m.list pListDst)
    ⟨m.setList pListDst t.state, offsetData :: t.reads, t.used⟩
  else ⟨m, [offsetData], []⟩

/-- `find_data_in_mag_list`: none when the list it searches is at the null pointer. -/
def findDataInMagList (src : Adr) (m : ProxyMag) : Option Bool :=
  if m.filterType = filterWhiteList then some (findDataInList src m.whiteList)
  else if m.filterType = filterBlackList then some (findDataInList src m.blackList)
  else none

/-! ### One list -/

variable {l : ListMag} {m : ProxyMag} {src value : Adr} {c : ConfigPdu}

/-- The loop stops at the place that is found. -/
theorem searchIdx_some {i : Fin maxListLen} (h : find l.listData value = some i) :
    searchIdx value l = i := by
  rw [find, firstIdx, List.find?_eq_getElem?_findIdx] at h
  obtain ⟨hlt, hi⟩ := List.getElem?_eq_some_iff.mp h
  rw [List.getElem_finRange] at hi
  exact congrArg Fin.val hi

/-- It goes through when there is none. -/
theorem searchIdx_none (h : find l.listData value = none) : searchIdx value l = maxListLen := by
  have hall : searchIdx value l = (List.finRange maxListLen).length :=
    List.findIdx_eq_length.mpr fun i _ => decide_eq_false (find_none.mp h i)
  exact hall.trans List.length_finRange

theorem write_eq (l : ListMag) (i : Fin maxListLen) (src : Adr) :
    l.write i src = Function.update l.listData i src := by
  funext k
  rw [ListMag.write, Function.update_apply]
  simp only [Fin.val_inj]

/-- Where the search stops, `written` says what is left; the place it is given is found. -/
theorem searchTrace_spec (value : Adr) (l : ListMag) (written : ℕ → ListMag) :
    let t := if searchIdx value l ≠ maxListLen then
        (written (searchIdx value l), [Used.mk l value (searchIdx value l)])
      else (l, [])
    t.1 = (find l.listData value).elim l (fun i => written i) ∧ ∀ u ∈ t.2, u.Found := by
  cases hfind : find l.listData value with
  | none =>
    rw [if_neg (not_not_intro (searchIdx_none hfind))]
    exact ⟨rfl, fun u hu => absurd hu List.not_mem_nil⟩
  | some i =>
    have hidx := searchIdx_some hfind
    rw [if_pos (hidx ▸ Nat.ne_of_lt i.isLt), hidx]
    refine ⟨rfl, fun u hu => ?_⟩
    rw [List.mem_singleton.mp hu]
    exact ⟨i.isLt, find_some hfind⟩

/-- The place that a call writes is found, and the list it leaves is that of the model. -/
theorem addTrace_spec (src : Adr) (l : ListMag) :
    (addTrace src l).1 = (addDataToList src l).1 ∧ ∀ u ∈ (addTrace src l).2, u.Found := by
  rw [addTrace, addDataToList]
  split
  · exact ⟨rfl, fun u hu => absurd hu List.not_mem_nil⟩
  split
  · exact ⟨rfl, fun u hu => absurd hu List.not_mem_nil⟩
  obtain ⟨hlist, hfound⟩ := searchTrace_spec 0 l
    fun idx => ⟨l.write idx src, BitArray.set l.listIdx idx⟩
  refine ⟨hlist.trans ?_, hfound⟩
  cases find l.listData 0 with
  | none => rfl
  | some i => rw [Option.elim_some, write_eq]

theorem deleteTrace_spec (src : Adr) (l : ListMag) :
    (deleteTrace src l).1 = (deleteDataFromList src l).1 ∧
      ∀ u ∈ (deleteTrace src l).2, u.Found := by
  rw [deleteTrace, deleteDataFromList]
  split
  · exact ⟨rfl, fun u hu => absurd hu List.not_mem_nil⟩
  split
  · exact ⟨rfl, fun u hu => absurd hu List.not_mem_nil⟩
  obtain ⟨hlist, hfound⟩ := searchTrace_spec src l
    fun idx => ⟨l.write idx 0, BitArray.clear l.listIdx idx⟩
  refine ⟨hlist.trans ?_, hfound⟩
  cases find l.listData src with
  | none => rfl
  | some i => rw [Option.elim_some, write_eq]

/-! ### One PDU -/

/-- The offsets of the addresses. -/
def addressReads (n : ℕ) : List ℕ :=
  (List.range n).flatMap fun i => [offsetPara + 2 * i, offsetPara + (2 * i + 1)]

/-- The loop, for a call that leaves what `call` does and uses places that are found. -/
theorem addressLoop_spec {trace : Adr → ListMag → ListMag × List Used}
    {call : Adr → ListMag → ListMag} (h : ∀ src l, (trace src l).1 = call src l ∧
      ∀ u ∈ (trace src l).2, u.Found) (c : ConfigPdu) (l : ListMag) :
    (addressLoop trace c l).state = (proxyUnicasts c.para c.len).foldl (fun l a => call a l) l ∧
      (addressLoop trace c l).reads = addressReads ((c.len - 18).toNat / 2) ∧
      ∀ u ∈ (addressLoop trace c l).used, u.Found := by
  rw [addressLoop, proxyUnicasts, addressReads, List.foldl_map]
  induction (c.len - 18).toNat / 2 with
  | zero => exact ⟨rfl, rfl, fun u hu => absurd hu List.not_mem_nil⟩
  | succ n ih =>
    obtain ⟨hstate, hreads, hused⟩ := ih
    rw [List.range_succ, List.foldl_append, List.foldl_append, List.flatMap_append]
    refine ⟨?_, ?_, ?_⟩
    · rw [List.foldl_cons, List.foldl_nil, List.foldl_cons, List.foldl_nil, ← hstate]
      exact (h _ _).1
    · rw [List.foldl_cons, List.foldl_nil, ← hreads]
      rfl
    · rw [List.foldl_cons, List.foldl_nil]
      intro u hu
      obtain hu | hu := List.mem_append.mp hu
      · exact hused u hu
      · exact (h _ _).2 u hu

/-- The state of the trace is that of the model. -/
theorem configTrace_state (m : ProxyMag) (c : ConfigPdu) :
    (configTrace m c).state = (proxyConfigDispatch m c.opcode c.para c.len).1 := by
  rw [configTrace, proxyConfigDispatch]
  split
  · rfl
  split
  · exact congrArg (m.setList _) (addressLoop_spec addTrace_spec c _).1
  split
  · exact congrArg (m.setList _) (addressLoop_spec deleteTrace_spec c _).1
  · rfl

/-- **No place** is used that the search has not found. -/
theorem configTrace_found (m : ProxyMag) (c : ConfigPdu) :
    ∀ u ∈ (configTrace m c).used, u.Found := by
  rw [configTrace]
  split
  · exact fun u hu => absurd hu List.not_mem_nil
  split
  · exact (addressLoop_spec addTrace_spec c _).2.2
  split
  · exact (addressLoop_spec deleteTrace_spec c _).2.2
  · exact fun u hu => absurd hu List.not_mem_nil

/-! ### Safety -/

/-- The filter type is one of the two. -/
def ProxyMag.TypeOk (m : ProxyMag) : Prop :=
  m.filterType = filterWhiteList ∨ m.filterType = filterBlackList

/-- What a call should leave, read and use. -/
structure ProxyMag.Safe (m : ProxyMag) (c : ConfigPdu) : Prop where
  type : (configTrace m c).state.TypeOk
  inside : ∀ o ∈ (configTrace m c).reads, o < c.len.toNat
  found : ∀ u ∈ (configTrace m c).used, u.Found

/-- A PDU that has its opcode, and one of the two types or the 18 octets around the addresses. -/
structure ConfigPdu.Ok (c : ConfigPdu) : Prop where
  opcode : 10 ≤ c.len.toNat
  set : c.opcode &&& 0x3f = proxyFilterSetType →
    11 ≤ c.len.toNat ∧ (c.para 0 = filterWhiteList ∨ c.para 0 = filterBlackList)
  addresses : c.opcode &&& 0x3f = proxyFilterAddAdr ∨ c.opcode &&& 0x3f = proxyFilterRmAdr →
    18 ≤ c.len.toNat

/-- The lookup needs one of the two types. -/
theorem findDataInMagList_isSome (src : Adr) (m : ProxyMag) :
    (findDataInMagList src m).isSome ↔ m.TypeOk := by
  rw [findDataInMagList, ProxyMag.TypeOk]
  split
  · rename_i h
    exact iff_of_true rfl (.inl h)
  split
  · rename_i h
    exact iff_of_true rfl (.inr h)
  · rename_i hw hb
    exact iff_of_false Bool.false_ne_true (not_or.mpr ⟨hw, hb⟩)

/-- The offsets of the addresses lie in the PDU iff the count does not wrap. -/
theorem addressReads_inside (len : Byte) :
    (∀ o ∈ offsetData :: addressReads ((len - 18).toNat / 2), o < len.toNat) ↔ 18 ≤ len.toNat := by
  have hlt := len.isLt
  have heighteen : (18 : Byte).toNat = 18 := rfl
  have hcount : (len - 18).toNat = (len.toNat + 238) % 256 := by
    rw [BitVec.toNat_sub, heighteen]
    omega
  have hmem : ∀ o, o ∈ addressReads ((len - 18).toNat / 2) ↔
      ∃ i < (len - 18).toNat / 2, o = 10 + 2 * i ∨ o = 10 + (2 * i + 1) := by
    intro o
    simp [addressReads, offsetPara]
  rw [List.forall_mem_cons]
  constructor
  · rintro ⟨-, hin⟩
    by_contra hshort
    have hlast := hin (10 + (2 * 118 + 1)) ((hmem _).mpr ⟨118, by omega, .inr rfl⟩)
    omega
  · intro hlong
    refine ⟨Nat.lt_of_lt_of_le (by decide) hlong, fun o ho => ?_⟩
    obtain ⟨i, hi, ho⟩ := (hmem o).mp ho
    omega

/-- The loop's PDUs are in order iff they are long enough. -/
theorem ok_of_addresses (hop : c.opcode &&& 0x3f = proxyFilterAddAdr ∨
    c.opcode &&& 0x3f = proxyFilterRmAdr) : c.Ok ↔ 18 ≤ c.len.toNat := by
  refine ⟨fun h => h.addresses hop, fun hlong => ⟨by omega, fun hset => ?_, fun _ => hlong⟩⟩
  rw [hset] at hop
  exact absurd hop (by decide)

/-- **One PDU** does no harm iff it is in order. -/
theorem safe_iff (h : m.TypeOk) (c : ConfigPdu) : m.Safe c ↔ c.Ok := by
  have hkeep : ∀ (dst : ListDst) (l : ListMag), (m.setList dst l).TypeOk := by
    intro dst l
    rw [ProxyMag.TypeOk, filterType_setList]
    exact h
  have hsafe : m.Safe c ↔ (configTrace m c).state.TypeOk ∧
      ∀ o ∈ (configTrace m c).reads, o < c.len.toNat :=
    ⟨fun hs => ⟨hs.type, hs.inside⟩, fun hs => ⟨hs.1, hs.2, configTrace_found m c⟩⟩
  rw [hsafe]
  by_cases hset : c.opcode &&& 0x3f = proxyFilterSetType
  · rw [configTrace, if_pos hset]
    dsimp only
    rw [ProxyMag.TypeOk, filterType_setList, List.forall_mem_cons, List.forall_mem_singleton]
    refine ⟨fun hs => ⟨hs.2.1, fun _ => ⟨hs.2.2, hs.1⟩, fun hop => ?_⟩,
      fun hok => ⟨(hok.set hset).2, hok.opcode, (hok.set hset).1⟩⟩
    rw [hset] at hop
    exact absurd hop (by decide)
  by_cases hadd : c.opcode &&& 0x3f = proxyFilterAddAdr
  · rw [configTrace, if_neg hset, if_pos hadd, ok_of_addresses (.inl hadd)]
    dsimp only
    rw [(addressLoop_spec addTrace_spec c _).2.1, addressReads_inside]
    exact and_iff_right (hkeep _ _)
  by_cases hrm : c.opcode &&& 0x3f = proxyFilterRmAdr
  · rw [configTrace, if_neg hset, if_neg hadd, if_pos hrm, ok_of_addresses (.inr hrm)]
    dsimp only
    rw [(addressLoop_spec deleteTrace_spec c _).2.1, addressReads_inside]
    exact and_iff_right (hkeep _ _)
  · rw [configTrace, if_neg hset, if_neg hadd, if_neg hrm]
    dsimp only
    rw [List.forall_mem_singleton]
    have hne := not_or.mpr ⟨hadd, hrm⟩
    exact ⟨fun hs => ⟨hs.2, fun hop => absurd hop hset, fun hop => absurd hop hne⟩,
      fun hok => ⟨h, hok.opcode⟩⟩

/-! ### Runs -/

/-- Connections, configuration PDUs, and messages of the client. -/
inductive ProxyInput
  | connect (initialMode : Byte)
  | config (c : ConfigPdu)
  | meshCmd (src : Adr)

def ProxyMag.next (m : ProxyMag) : ProxyInput → ProxyMag
  | .connect initialMode => proxyCfgListInitUponConnection initialMode
  | .config c => (configTrace m c).state
  | .meshCmd src => proxyProcFilterMeshCmd m src

/-- A configuration PDU does no harm. -/
def ProxyMag.Harmless (m : ProxyMag) : ProxyInput → Prop
  | .config c => m.Safe c
  | _ => True

def ProxyInput.InOrder : ProxyInput → Prop
  | .config c => c.Ok
  | _ => True

/-- The runs are those of the model. -/
theorem next_eq (m : ProxyMag) (e : ProxyInput) : m.next e = proxyStep m (match e with
    | .connect initialMode => .connect initialMode
    | .config c => .config c.opcode c.para c.len
    | .meshCmd src => .meshCmd src) := by
  cases e with
  | connect initialMode => rfl
  | config c => exact configTrace_state m c
  | meshCmd src => rfl

theorem typeOk_next (h : m.TypeOk) {e : ProxyInput} (hgood : m.Harmless e) : (m.next e).TypeOk := by
  cases e with
  | connect initialMode =>
    show (if initialMode = filterWhiteList then filterWhiteList else filterBlackList) = _ ∨
      (if initialMode = filterWhiteList then filterWhiteList else filterBlackList) = _
    split
    · exact .inl rfl
    · exact .inr rfl
  | config c => exact hgood.type
  | meshCmd src =>
    rw [ProxyMag.next, proxyProcFilterMeshCmd]
    split
    · rw [ProxyMag.TypeOk, filterType_setList]
      exact h
    split
    · rw [ProxyMag.TypeOk, filterType_setList]
      exact h
    · exact h

/-- **The proxy configuration** is safe in a run, from any state with a filter type, iff each PDU
is in order. -/
theorem proxyConfig_exact (h : m.TypeOk) (es : List ProxyInput) :
    GoodRun ProxyMag.next ProxyMag.Harmless m es ↔ ∀ e ∈ es, e.InOrder := by
  induction es generalizing m with
  | nil => exact iff_of_true trivial fun e he => nomatch he
  | cons e es ih =>
    rw [List.forall_mem_cons]
    have hiff : m.Harmless e ↔ e.InOrder := by
      cases e with
      | config c => exact safe_iff h c
      | _ => exact Iff.rfl
    rw [GoodRun, ← hiff]
    exact and_congr_right fun hgood => ih (typeOk_next h hgood)

theorem proxyConfig_sample : GoodRun ProxyMag.next ProxyMag.Harmless .zero
    [.connect 0, .config ⟨fun i => if i = 10 then 1 else 0, 19⟩, .meshCmd 0x0001] :=
  (proxyConfig_exact (m := .zero) (.inl rfl) _).mpr (by
    rw [List.forall_mem_cons, List.forall_mem_cons, List.forall_mem_singleton]
    have hok : ConfigPdu.Ok ⟨fun i => if i = 10 then 1 else 0, 19⟩ :=
      ⟨by decide, fun _ => ⟨by decide, .inr rfl⟩, fun hop => absurd hop (by decide)⟩
    exact ⟨trivial, hok, trivial⟩)

/-- A PDU that sets the filter type to 2 is obeyed. -/
theorem proxyConfig_refuted : ¬ ProxyMag.Safe .zero ⟨fun i => if i = 10 then 2 else 0, 19⟩ :=
  fun h => absurd h.type (by
    rw [configTrace, if_pos (by decide), ProxyMag.TypeOk, filterType_setList]
    decide)

end PirMesh
