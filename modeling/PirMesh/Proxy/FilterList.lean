import Mathlib.Data.BitVec
import PirMesh.Library.BitFields
import PirMesh.Library.Nor
import PirMesh.Library.Run
import PirMesh.Library.Slots

/-! # Proxy — The filter lists of `app_proxy.c`

A proxy server keeps two lists of addresses and uses the one its filter type
selects.  The client sets the type and adds and removes addresses by
configuration PDUs; the source address of a message the client sends is added to
a white list and taken out of a black one.

A list is an array of addresses with a bitmap of the places taken.  The lookups
go by the array, where `0` is a free place; the size that is reported goes by the
bitmap.  `ListOk` ties the two and keeps the addresses distinct.  Under it the list is the
set `keys l.listData`: adding inserts into the set while there is room
(`addDataToList_spec`), removing takes out (`deleteDataFromList_spec`), and the loops over the
addresses of a PDU do so one address after the other (`addAll_spec`, `deleteAll_spec`).

The unassigned address is in no list.  A PDU to it is the proxy configuration's own
and always passes; every other PDU passes by membership, and none passes while the
filter type is neither of the two. -/

namespace PirMesh

open Nor Slots

def maxListLen : Nat := 16

abbrev Adr := BitVec 16

def filterWhiteList : Byte := 0

def filterBlackList : Byte := 1

def proxyFilterSetType : Byte := 0

def proxyFilterAddAdr : Byte := 1

def proxyFilterRmAdr : Byte := 2

/-- `PROXY_CONFIG_FILTER_DST_ADR` -/
def proxyConfigFilterDstAdr : Adr := 0x0000

/-- `listIdx` is the array of bytes `list_idx[(MAX_LIST_LEN+7)/8]`. -/
structure ListMag where
  listData : Fin maxListLen → Adr
  listIdx : Nat → Byte

structure ProxyMag where
  filterType : Byte
  whiteList : ListMag
  blackList : ListMag

/-- The two lists, as `p_list_dst` points to them. -/
inductive ListDst
  | white
  | black
  deriving DecidableEq, Repr

def ListMag.zero : ListMag := ⟨fun _ => 0, fun _ => 0⟩

namespace ProxyMag

def zero : ProxyMag := ⟨0, .zero, .zero⟩

def list (m : ProxyMag) : ListDst → ListMag
  | .white => m.whiteList
  | .black => m.blackList

def setList (m : ProxyMag) (dst : ListDst) (l : ListMag) : ProxyMag :=
  match dst with
  | .white => { m with whiteList := l }
  | .black => { m with blackList := l }

end ProxyMag

/-! ### One list -/

def findDataInList (dst : Adr) (l : ListMag) : Bool := (find l.listData dst).isSome

def getListCnt (l : ListMag) : Nat := count fun i : Fin maxListLen => BitArray.test l.listIdx i

/-- The list after the call and what it returns: `2` for an address the list has,
`1` when it is added, `0` when there is no room. -/
def addDataToList (src : Adr) (l : ListMag) : ListMag × Byte :=
  if findDataInList src l then (l, 2)
  else if getListCnt l ≥ maxListLen then (l, 0)
  else match find l.listData 0 with
    | some idx =>
      (⟨Function.update l.listData idx src, BitArray.set l.listIdx idx⟩, 1)
    | none => (l, 0)

/-- The list after the call and what it returns: `2` for an address the list does
not have, `1` when it is removed, `0` for an empty list. -/
def deleteDataFromList (src : Adr) (l : ListMag) : ListMag × Byte :=
  if !findDataInList src l then (l, 2)
  else if getListCnt l ≤ 0 then (l, 0)
  else match find l.listData src with
    | some idx =>
      (⟨Function.update l.listData idx 0, BitArray.clear l.listIdx idx⟩, 1)
    | none => (l, 0)

/-- The loop over the addresses of an add PDU. -/
def addAllToList (adrs : List Adr) (l : ListMag) : ListMag :=
  adrs.foldl (fun l adr => (addDataToList adr l).1) l

/-- The loop over the addresses of a remove PDU. -/
def deleteAllFromList (adrs : List Adr) (l : ListMag) : ListMag :=
  adrs.foldl (fun l adr => (deleteDataFromList adr l).1) l

/-! ### The filter -/

def filterDataInMagList (dst : Adr) (m : ProxyMag) : Bool :=
  if m.filterType = filterWhiteList then findDataInList dst m.whiteList
  else if m.filterType = filterBlackList then !findDataInList dst m.blackList
  else false

/-- Whether a PDU to `dst` goes to the client. -/
def isValidAdvWithProxyFilter (m : ProxyMag) (dst : Adr) : Bool :=
  if dst = proxyConfigFilterDstAdr then true else filterDataInMagList dst m

/-- A type that is neither of the two has the black list. -/
def getFilterPointer (filterType : Byte) : ListDst :=
  if filterType = filterWhiteList then .white else .black

/-- The status PDU. -/
structure FilterSts where
  filType : Byte
  listSize : Nat
  deriving DecidableEq, Repr

def sendFilterSts (m : ProxyMag) (l : ListMag) : FilterSts := ⟨m.filterType, getListCnt l⟩

/-- A message of the client has gone out with source `src`. -/
def proxyProcFilterMeshCmd (m : ProxyMag) (src : Adr) : ProxyMag :=
  if m.filterType = filterWhiteList then m.setList .white (addDataToList src m.whiteList).1
  else if m.filterType = filterBlackList then
    m.setList .black (deleteDataFromList src m.blackList).1
  else m

/-- The addresses of an add or remove PDU: `para` is the memory its parameters start
at, `len` the length of the PDU with 18 octets in front of them, a byte that wraps.
The octets of an address are swapped before it is read. -/
def proxyUnicasts (para : Nat → Byte) (len : Byte) : List Adr :=
  (List.range ((len - 18).toNat / 2)).map fun i => para (2 * i) ++ para (2 * i + 1)

/-- The lists after a configuration PDU and the status it is answered with. -/
def proxyConfigDispatch (m : ProxyMag) (opcode : Byte) (para : Nat → Byte) (len : Byte) :
    ProxyMag × Option FilterSts :=
  let pListDst := getFilterPointer m.filterType
  if opcode &&& 0x3f = proxyFilterSetType then
    let pListDst := getFilterPointer (para 0)
    let m := { m with filterType := para 0 }.setList pListDst .zero
    (m, some (sendFilterSts m (m.list pListDst)))
  else if opcode &&& 0x3f = proxyFilterAddAdr then
    let l := addAllToList (proxyUnicasts para len) (m.list pListDst)
    (m.setList pListDst l, some (sendFilterSts m l))
  else if opcode &&& 0x3f = proxyFilterRmAdr then
    let l := deleteAllFromList (proxyUnicasts para len) (m.list pListDst)
    (m.setList pListDst l, some (sendFilterSts m l))
  else (m, none)

def proxyCfgListInitUponConnection (initialMode : Byte) : ProxyMag :=
  { ProxyMag.zero with
    filterType := if initialMode = filterWhiteList then filterWhiteList else filterBlackList }

/-! ### Runs -/

inductive ProxyEvent
  | connect (initialMode : Byte)
  | config (opcode : Byte) (para : Nat → Byte) (len : Byte)
  | meshCmd (src : Adr)

def proxyStep (m : ProxyMag) : ProxyEvent → ProxyMag
  | .connect initialMode => proxyCfgListInitUponConnection initialMode
  | .config opcode para len => (proxyConfigDispatch m opcode para len).1
  | .meshCmd src => proxyProcFilterMeshCmd m src

def proxySys : Run.Sys ProxyMag ProxyEvent := .det (fun m => m = .zero) proxyStep

/-! ### The filter list is a set -/

open Run

variable {l : ListMag} {m : ProxyMag} {a : Adr} {i : Fin maxListLen}

/-- The addresses of a list. -/
def ListMag.adrs (l : ListMag) : Set Adr := keys l.listData

structure ListOk (l : ListMag) : Prop where
  bit : ∀ i : Fin maxListLen, BitArray.test l.listIdx i = true ↔ l.listData i ≠ 0
  distinct : Distinct l.listData

/-! ### One list -/

theorem ListOk.zero : ListOk .zero :=
  ⟨fun _ => ⟨fun h => absurd h (by rw [ListMag.zero, BitArray.test_zero]; decide),
    fun h => absurd rfl h⟩, .free⟩

theorem adrs_zero : ListMag.zero.adrs = ∅ :=
  Set.eq_empty_of_forall_notMem fun _ h => h.2.elim fun _ h0 => h.1 h0.symm

theorem ListOk.insert (h : ListOk l) (ha : a ≠ 0) (hnew : a ∉ l.adrs) (i : Fin maxListLen) :
    ListOk ⟨Function.update l.listData i a, BitArray.set l.listIdx i⟩ where
  bit j := by
    simp only [BitArray.test_set (show 0 < 8 by decide), Fin.val_inj]
    by_cases hj : j = i
    · rw [hj, Function.update_self, decide_eq_true rfl, Bool.true_or]
      exact iff_of_true rfl ha
    · rw [Function.update_of_ne hj, decide_eq_false hj, Bool.false_or]
      exact h.bit j
  distinct := h.distinct.insert hnew i

theorem ListOk.clear (h : ListOk l) (i : Fin maxListLen) :
    ListOk ⟨Function.update l.listData i 0, BitArray.clear l.listIdx i⟩ where
  bit j := by
    simp only [BitArray.test_clear (show 0 < 8 by decide), Fin.val_inj]
    by_cases hj : j = i
    · rw [hj, Function.update_self, decide_eq_true rfl, Bool.not_true, Bool.false_and]
      exact iff_of_false Bool.false_ne_true (not_not_intro rfl)
    · rw [Function.update_of_ne hj, decide_eq_false hj, Bool.not_false, Bool.true_and]
      exact h.bit j
  distinct := h.distinct.clear i

/-- A free place counts as one. -/
theorem getListCnt_lt (h : ListOk l) (hi : l.listData i = 0) : getListCnt l < maxListLen := by
  refine count_lt (i := i) (Bool.eq_false_iff.mpr fun hbit => ?_)
  exact (h.bit i).mp hbit hi

theorem getListCnt_pos (h : ListOk l) (hi : l.listData i ≠ 0) : 0 < getListCnt l :=
  count_pos (i := i) ((h.bit i).mpr hi)

theorem findDataInList_iff (ha : a ≠ 0) : findDataInList a l = true ↔ a ∈ l.adrs := by
  have hnone : find l.listData a = none ↔ a ∉ keys l.listData := find_none_iff ha
  unfold findDataInList ListMag.adrs
  cases hf : find l.listData a with
  | none => simpa using hnone.mp hf
  | some i => simpa [hf] using hnone

/-- **Adding** inserts an assigned address while there is room. -/
theorem addDataToList_spec (h : ListOk l) (a : Adr) :
    ListOk (addDataToList a l).1 ∧
      ((addDataToList a l).1.adrs =
        if a = 0 ∨ Slots.Full l.listData then l.adrs else insert a l.adrs) := by
  unfold addDataToList
  split
  · rename_i hfound
    refine ⟨h, ?_⟩
    split
    · rfl
    · rename_i hroom
      have ha : a ≠ 0 := fun h0 => hroom (.inl h0)
      exact (Set.insert_eq_of_mem ((findDataInList_iff ha).mp hfound)).symm
  rename_i hnew
  -- `0` is looked up among the free places: not finding it means there are none
  have hfull : a = 0 → Slots.Full l.listData := by
    rintro rfl
    intro i
    rw [findDataInList, Option.isSome_iff_ne_none, not_not, find_none] at hnew
    exact hnew i
  cases hfree : find l.listData 0 with
  | none =>
    have hall : a = 0 ∨ Slots.Full l.listData := .inr (find_none.mp hfree)
    rw [if_pos hall]
    split <;> exact ⟨h, rfl⟩
  | some i =>
    have hi := find_some hfree
    have hroom : ¬ Slots.Full l.listData := fun hall => hall i hi
    have ha : a ≠ 0 := fun h0 => hroom (hfull h0)
    have hnot : a ∉ l.adrs := fun hmem => hnew ((findDataInList_iff ha).mpr hmem)
    rw [if_neg (Nat.not_le.mpr (getListCnt_lt h hi)), if_neg (not_or.mpr ⟨ha, hroom⟩)]
    exact ⟨h.insert ha hnot i, keys_insert hi ha⟩

/-- **Removing** takes the address out, and no other. -/
theorem deleteDataFromList_spec (h : ListOk l) (a : Adr) :
    ListOk (deleteDataFromList a l).1 ∧ (deleteDataFromList a l).1.adrs = l.adrs \ {a} := by
  have hsame (hno : a ∉ l.adrs) : ListOk l ∧ l.adrs = l.adrs \ {a} :=
    ⟨h, (Set.sdiff_singleton_eq_self hno).symm⟩
  unfold deleteDataFromList
  split
  · rename_i hmissing
    refine hsame fun hmem => ?_
    rw [(findDataInList_iff hmem.1).mpr hmem] at hmissing
    cases hmissing
  split
  · rename_i hempty
    exact hsame fun hmem => hmem.2.elim fun i hi =>
      absurd (getListCnt_pos h (hi ▸ hmem.1)) (Nat.not_lt.mpr hempty)
  · cases hi : find l.listData a with
    | none => exact hsame fun hmem => hmem.2.elim (find_none.mp hi)
    | some i =>
      obtain rfl := find_some hi
      exact ⟨h.clear i, keys_clear h.distinct i⟩

/-! ### The addresses of a PDU -/

theorem addAll_append (pre post : List Adr) (l : ListMag) :
    addAllToList (pre ++ post) l = addAllToList post (addAllToList pre l) := List.foldl_append ..

theorem addAll_ok (h : ListOk l) (adrs : List Adr) : ListOk (addAllToList adrs l) :=
  List.foldlRecOn adrs _ h fun _ hl a _ => (addDataToList_spec hl a).1

theorem subset_add (h : ListOk l) (a : Adr) : l.adrs ⊆ (addDataToList a l).1.adrs := by
  rw [(addDataToList_spec h a).2]
  split
  · exact subset_rfl
  · exact Set.subset_insert ..

theorem subset_addAll (h : ListOk l) (adrs : List Adr) : l.adrs ⊆ (addAllToList adrs l).adrs := by
  induction adrs generalizing l with
  | nil => exact subset_rfl
  | cons a adrs ih => exact (subset_add h a).trans (ih (addDataToList_spec h a).1)

theorem addAll_subset (h : ListOk l) (adrs : List Adr) :
    (addAllToList adrs l).adrs ⊆ l.adrs ∪ {a | a ∈ adrs ∧ a ≠ 0} := by
  induction adrs generalizing l with
  | nil => exact Set.subset_union_left
  | cons a adrs ih =>
    refine (ih (addDataToList_spec h a).1).trans ?_
    rw [(addDataToList_spec h a).2]
    rintro b (hb | ⟨hb, hb0⟩)
    · split at hb
      · exact .inl hb
      · rename_i hroom
        rcases hb with rfl | hb
        · exact .inr ⟨List.mem_cons_self .., fun h0 => hroom (.inl h0)⟩
        · exact .inl hb
    · exact .inr ⟨List.mem_cons_of_mem a hb, hb0⟩

/-- An address that is not in the list after the PDU came when the list was full. -/
theorem addAll_full (h : ListOk l) {pre post : List Adr} (ha : a ≠ 0) :
    a ∈ (addAllToList (pre ++ a :: post) l).adrs ∨ Slots.Full (addAllToList pre l).listData := by
  have hpre := addAll_ok h pre
  by_cases hfull : Slots.Full (addAllToList pre l).listData
  · exact .inr hfull
  · refine .inl ?_
    rw [addAll_append]
    refine subset_addAll (addDataToList_spec hpre a).1 post ?_
    rw [(addDataToList_spec hpre a).2, if_neg (not_or.mpr ⟨ha, hfull⟩)]
    exact Set.mem_insert ..

theorem deleteAll_spec (h : ListOk l) (adrs : List Adr) :
    ListOk (deleteAllFromList adrs l) ∧
      (deleteAllFromList adrs l).adrs = l.adrs \ {a | a ∈ adrs} := by
  induction adrs generalizing l with
  | nil => exact ⟨h, by simp [deleteAllFromList]⟩
  | cons a adrs ih =>
    obtain ⟨hok, hadrs⟩ := deleteDataFromList_spec h a
    refine ⟨(ih hok).1, (ih hok).2.trans ?_⟩
    rw [hadrs]
    ext b
    simp only [Set.mem_sdiff, Set.mem_singleton_iff, Set.mem_ofPred_eq, List.mem_cons, not_or,
      and_assoc]

/-! ### Configuration PDUs -/

/-- The list the filter type selects. -/
def ProxyMag.used (m : ProxyMag) : ListMag := m.list (getFilterPointer m.filterType)

structure ProxyOk (m : ProxyMag) : Prop where
  white : ListOk m.whiteList
  black : ListOk m.blackList

theorem ProxyOk.list (h : ProxyOk m) : (dst : ListDst) → ListOk (m.list dst)
  | .white => h.white
  | .black => h.black

theorem ProxyOk.setList (h : ProxyOk m) (hl : ListOk l) : (dst : ListDst) →
    ProxyOk (m.setList dst l)
  | .white => ⟨hl, h.black⟩
  | .black => ⟨h.white, hl⟩

@[simp] theorem list_setList (m : ProxyMag) (dst : ListDst) (l : ListMag) :
    (m.setList dst l).list dst = l := by
  cases dst <;> rfl

@[simp] theorem filterType_setList (m : ProxyMag) (dst : ListDst) (l : ListMag) :
    (m.setList dst l).filterType = m.filterType := by
  cases dst <;> rfl

section
variable {opcode : Byte} {para : Nat → Byte} {len : Byte}

theorem dispatch_setType (hop : opcode &&& 0x3f = proxyFilterSetType) :
    proxyConfigDispatch m opcode para len =
      ({ m with filterType := para 0 }.setList (getFilterPointer (para 0)) .zero,
        some ⟨para 0, getListCnt .zero⟩) := by
  simp only [proxyConfigDispatch, if_pos hop, sendFilterSts, list_setList, filterType_setList]

theorem dispatch_add (hop : opcode &&& 0x3f = proxyFilterAddAdr) :
    proxyConfigDispatch m opcode para len =
      (m.setList (getFilterPointer m.filterType) (addAllToList (proxyUnicasts para len) m.used),
        some ⟨m.filterType, getListCnt (addAllToList (proxyUnicasts para len) m.used)⟩) := by
  have hset : ¬ opcode &&& 0x3f = proxyFilterSetType := by
    rw [hop]
    decide
  simp only [proxyConfigDispatch, if_neg hset, if_pos hop]
  rfl

theorem dispatch_rm (hop : opcode &&& 0x3f = proxyFilterRmAdr) :
    proxyConfigDispatch m opcode para len =
      (m.setList (getFilterPointer m.filterType)
        (deleteAllFromList (proxyUnicasts para len) m.used),
        some ⟨m.filterType, getListCnt (deleteAllFromList (proxyUnicasts para len) m.used)⟩) := by
  have hset : ¬ opcode &&& 0x3f = proxyFilterSetType := by
    rw [hop]
    decide
  have hadd : ¬ opcode &&& 0x3f = proxyFilterAddAdr := by
    rw [hop]
    decide
  simp only [proxyConfigDispatch, if_neg hset, if_neg hadd, if_pos hop]
  rfl

theorem dispatch_other (hset : opcode &&& 0x3f ≠ proxyFilterSetType)
    (hadd : opcode &&& 0x3f ≠ proxyFilterAddAdr) (hrm : opcode &&& 0x3f ≠ proxyFilterRmAdr) :
    proxyConfigDispatch m opcode para len = (m, none) := by
  simp only [proxyConfigDispatch, if_neg hset, if_neg hadd, if_neg hrm]

theorem ProxyOk.dispatch (h : ProxyOk m) : ProxyOk (proxyConfigDispatch m opcode para len).1 := by
  have hused : ListOk m.used := h.list _
  by_cases hset : opcode &&& 0x3f = proxyFilterSetType
  · rw [dispatch_setType hset]
    have htype : ProxyOk { m with filterType := para 0 } := ⟨h.white, h.black⟩
    exact htype.setList .zero _
  by_cases hadd : opcode &&& 0x3f = proxyFilterAddAdr
  · rw [dispatch_add hadd]
    exact h.setList (addAll_ok hused _) _
  by_cases hrm : opcode &&& 0x3f = proxyFilterRmAdr
  · rw [dispatch_rm hrm]
    exact h.setList (deleteAll_spec hused _).1 _
  · rw [dispatch_other hset hadd hrm]
    exact h

end

/-- **The filter**, for every destination. -/
theorem isValidAdv_iff (m : ProxyMag) (dst : Adr) : isValidAdvWithProxyFilter m dst = true ↔
    dst = proxyConfigFilterDstAdr ∨ (m.filterType = filterWhiteList ∧ dst ∈ m.whiteList.adrs) ∨
      (m.filterType = filterBlackList ∧ dst ∉ m.blackList.adrs) := by
  unfold isValidAdvWithProxyFilter filterDataInMagList
  by_cases h0 : dst = proxyConfigFilterDstAdr
  · simp [h0]
  by_cases hw : m.filterType = filterWhiteList
  · simp [h0, hw, findDataInList_iff h0, show filterWhiteList ≠ filterBlackList by decide]
  · by_cases hb : m.filterType = filterBlackList
    · simp [h0, hb, ← findDataInList_iff h0, show filterBlackList ≠ filterWhiteList by decide]
    · simp [h0, hw, hb]

/-! ### Runs -/

theorem ProxyOk.step (h : ProxyOk m) (e : ProxyEvent) : ProxyOk (proxyStep m e) := by
  cases e with
  | connect initialMode => exact ⟨.zero, .zero⟩
  | config opcode para len => exact h.dispatch
  | meshCmd src =>
    rw [proxyStep, proxyProcFilterMeshCmd]
    split
    · exact h.setList (addDataToList_spec h.white src).1 _
    · split
      · exact h.setList (deleteDataFromList_spec h.black src).1 _
      · exact h

theorem proxyOk_reach (h : proxySys.Reach m) : ProxyOk m := by
  refine h.inv (P := ProxyOk) ?_ ?_
  · rintro m rfl
    exact ⟨.zero, .zero⟩
  · rintro m e m' hm rfl
    exact hm.step e

/-- **The filter lists over all runs.** -/
theorem proxyFilter_runs (h : proxySys.Reach m) :
    ProxyOk m ∧
    (∀ opcode para len, opcode &&& 0x3f = proxyFilterSetType →
      ∃ l sts, proxyConfigDispatch m opcode para len =
          ({ m with filterType := para 0 }.setList (getFilterPointer (para 0)) l, some sts) ∧
        sts = ⟨para 0, getListCnt l⟩ ∧ l.adrs = ∅) ∧
    (∀ opcode para len, opcode &&& 0x3f = proxyFilterAddAdr →
      ∃ l sts, proxyConfigDispatch m opcode para len =
          (m.setList (getFilterPointer m.filterType) l, some sts) ∧
        sts = ⟨m.filterType, getListCnt l⟩ ∧ m.used.adrs ⊆ l.adrs ∧
        l.adrs ⊆ m.used.adrs ∪ {a | a ∈ proxyUnicasts para len ∧ a ≠ 0} ∧
        ∀ pre a post, proxyUnicasts para len = pre ++ a :: post → a ≠ 0 →
          a ∈ l.adrs ∨ Slots.Full (addAllToList pre m.used).listData) ∧
    (∀ opcode para len, opcode &&& 0x3f = proxyFilterRmAdr →
      ∃ l sts, proxyConfigDispatch m opcode para len =
          (m.setList (getFilterPointer m.filterType) l, some sts) ∧
        sts = ⟨m.filterType, getListCnt l⟩ ∧
        l.adrs = m.used.adrs \ {a | a ∈ proxyUnicasts para len}) ∧
    ∀ dst, isValidAdvWithProxyFilter m dst = true ↔
      dst = proxyConfigFilterDstAdr ∨ (m.filterType = filterWhiteList ∧ dst ∈ m.whiteList.adrs) ∨
        (m.filterType = filterBlackList ∧ dst ∉ m.blackList.adrs) := by
  have hok := proxyOk_reach h
  have hused : ListOk m.used := hok.list _
  refine ⟨hok, fun _ _ _ hop => ?_, fun _ para len hop => ?_, fun _ para len hop => ?_,
    isValidAdv_iff m⟩
  · exact ⟨_, _, dispatch_setType hop, rfl, adrs_zero⟩
  · refine ⟨_, _, dispatch_add hop, rfl, subset_addAll hused _, addAll_subset hused _, ?_⟩
    intro pre a post hsplit ha
    rw [hsplit]
    exact addAll_full hused ha
  · exact ⟨_, _, dispatch_rm hop, rfl, (deleteAll_spec hused _).2⟩

/-- An add PDU with one address twice and the unassigned one. -/
def addTwice : Nat → Byte := fun i => [0xC0, 0x00, 0x00, 0x00, 0xC0, 0x00].getD i 0

theorem proxyFilter_runs_zero : ProxyOk .zero ∧ ∃ l,
    proxyConfigDispatch .zero 1 addTwice 24 =
      (ProxyMag.zero.setList .white l, some ⟨0, getListCnt l⟩) ∧
      0xC000 ∈ l.adrs := by
  obtain ⟨hok, -, hadd, -⟩ := proxyFilter_runs (m := .zero) (.init rfl)
  obtain ⟨l, sts, hres, rfl, -, -, hin⟩ := hadd 1 addTwice 24 (by decide)
  refine ⟨hok, l, hres, (hin [] 0xC000 [0, 0xC000] (by decide) (by decide)).resolve_right ?_⟩
  exact fun hfull => hfull ⟨0, by decide⟩ rfl

/-- A PDU to the configuration address passes an empty white list. -/
theorem filter_passes_configuration : ¬ ∀ m, proxySys.Reach m → m.filterType = filterWhiteList →
    ∀ dst, (isValidAdvWithProxyFilter m dst = true ↔ dst ∈ m.whiteList.adrs) := by
  intro h
  have hmem := (h .zero (.init rfl) rfl 0).mp rfl
  exact hmem.1 rfl

end PirMesh
