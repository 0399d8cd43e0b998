import Mathlib.Data.BitVec
import PirMesh.Library.Records

/-! # Node — Composition data (`mesh_node.c`)

Page 0 of the composition data is a head and an element record for each element of the node: its
location, two counts, and the SIG and vendor models of these counts.  The page comes from another
node, and stands in a memory that goes on behind it.

`eleKind` says that element records are records of the library; so the elements of a page are
whole records and a rest, and both loops go from record to record.

The loop that counts looks at the two counts of a record before it knows that they are there.  When
one to three bytes are left over it looks behind the page (`ShortRest`).  And the count is a byte.
`cpsTraversed_iff` says that nothing else goes wrong. -/

namespace PirMesh

open Nor (Byte)
open Reassembly (read length_read)
open Records

/-! ### Elements -/

/-- `OFFSETOF(mesh_page0_t, ele)` -/
def offsetEle : ℕ := 10

/-- `OFFSETOF(mesh_element_head_t, md_sig)` -/
def offsetMdSig : ℕ := 4

/-- `p_ele->nums` -/
def eleNums (m : ℕ → Byte) (ele : ℕ) : Byte := m (ele + 2)

/-- `p_ele->numv` -/
def eleNumv (m : ℕ → Byte) (ele : ℕ) : Byte := m (ele + 3)

def getCpsEleLen (m : ℕ → Byte) (ele : ℕ) : ℕ :=
  offsetMdSig + (eleNums m ele).toNat * 2 + (eleNumv m ele).toNat * 4

/-- `p_ele->md_sig`, all of them. -/
def mdSig (m : ℕ → Byte) (ele : ℕ) : List (BitVec 16) :=
  getWords (.word 16 2) m (ele + offsetMdSig) (eleNums m ele).toNat

/-- `get_cps_vd_model_id`, for all of them. -/
def cpsVdModelIds (m : ℕ → Byte) (ele : ℕ) : List (BitVec 32) :=
  getWords (.word 32 4) m (ele + offsetMdSig + (eleNums m ele).toNat * 2) (eleNumv m ele).toNat

/-! ### The number of elements -/

/-- The loop at `pos`, and the places that it reads; an `int` holds `pos`. -/
def eleCntLoop (m : ℕ → Byte) (totalLenEle : ℤ) (pos cnt : ℕ) : Byte × List ℕ :=
  if pos < totalLenEle then
    let ele := offsetEle + pos
    let next := pos + getCpsEleLen m ele
    if totalLenEle < next then (0, [ele + 2, ele + 3])
    else
      let r := eleCntLoop m totalLenEle next (cnt + 1)
      (r.1, (ele + 2) :: (ele + 3) :: r.2)
  else (BitVec.ofNat 8 cnt, [])
termination_by (totalLenEle - pos).toNat
decreasing_by
  unfold getCpsEleLen offsetMdSig
  omega

/-- `total_len_ele`: the `u32` is taken for an `int`. -/
def totalLenEle (lenPage0 : BitVec 32) : ℤ := (lenPage0 - BitVec.ofNat 32 offsetEle).toInt

/-- What it returns, and the places that it reads. -/
def getEleCntByTraversalCps (m : ℕ → Byte) (lenPage0 : BitVec 32) : Byte × List ℕ :=
  eleCntLoop m (totalLenEle lenPage0) 0 0

/-! ### The element of a model -/

/-- `MODEL_NOT_FOUND` -/
def modelNotFound : Byte := 0xff

/-- The model is one of the element. -/
def eleHasModel (m : ℕ → Byte) (ele : ℕ) (modelId : BitVec 32) (sigModel : Bool) : Bool :=
  if sigModel then (mdSig m ele).any fun md => md.setWidth 32 == modelId
  else (cpsVdModelIds m ele).any fun md => md == modelId

def eleOffsetLoop (m : ℕ → Byte) (totalLenEle : ℤ) (nodeAdr objAdr : BitVec 16)
    (modelId : BitVec 32) (sigModel : Bool) (pos index : ℕ) : Byte :=
  if pos < totalLenEle then
    let ele := offsetEle + pos
    if objAdr ≥ nodeAdr ∧ eleHasModel m ele modelId sigModel then BitVec.ofNat 8 index
    else
      eleOffsetLoop m totalLenEle nodeAdr objAdr modelId sigModel (pos + getCpsEleLen m ele)
        (index + 1)
  else modelNotFound
termination_by (totalLenEle - pos).toNat
decreasing_by
  unfold getCpsEleLen offsetMdSig
  omega

def getEleOffsetByModel (m : ℕ → Byte) (lenPage0 : BitVec 32) (nodeAdr objAdr : BitVec 16)
    (modelId : BitVec 32) (sigModel : Bool) : Byte :=
  eleOffsetLoop m (totalLenEle lenPage0) nodeAdr objAdr modelId sigModel 0 0

/-! ### What a page is -/

/-- An element: its models fit the counts. -/
structure ElementRecord where
  loc : BitVec 16
  sig : List (BitVec 16)
  vendor : List (BitVec 32)
  sig_lt : sig.length < 256
  vendor_lt : vendor.length < 256

namespace ElementRecord

def put (r : ElementRecord) : List Byte :=
  (Format.word 16 2).put r.loc ++
    ([BitVec.ofNat 8 r.sig.length, BitVec.ofNat 8 r.vendor.length] ++
      (r.sig.flatMap (Format.word 16 2).put ++ r.vendor.flatMap (Format.word 32 4).put))

def get (m : ℕ → Byte) (ele : ℕ) : ElementRecord where
  loc := (Format.word 16 2).get (read m ele 2)
  sig := mdSig m ele
  vendor := cpsVdModelIds m ele
  sig_lt := (length_getWords _ m _ _).trans_lt (eleNums m ele).isLt
  vendor_lt := (length_getWords _ m _ _).trans_lt (eleNumv m ele).isLt

/-- It lists the model. -/
def Lists (r : ElementRecord) (modelId : BitVec 32) (sigModel : Bool) : Prop :=
  if sigModel then ∃ md ∈ r.sig, md.setWidth 32 = modelId else modelId ∈ r.vendor

end ElementRecord

/-! ### The traversal -/

open Reassembly (read length_read read_add getElem_read)

/-! ### Element records are records -/

namespace ElementRecord

theorem length_put (r : ElementRecord) :
    r.put.length = offsetMdSig + r.sig.length * 2 + r.vendor.length * 4 := by
  unfold put
  rw [List.length_append, List.length_append, List.length_append,
    (Format.Exact.word (by decide)).length_put, length_flatMap_put (.word (by decide)),
    length_flatMap_put (.word (by decide))]
  show 2 + (2 + (2 * _ + 4 * _)) = 4 + _ * 2 + _ * 4
  omega

theorem read_two (m : ℕ → Byte) (p : ℕ) : read m p 2 = [m p, m (p + 1)] := rfl

theorem put_get (m : ℕ → Byte) (ele : ℕ) : (get m ele).put = read m ele (getCpsEleLen m ele) := by
  have hsig : ((get m ele).sig.flatMap (Format.word 16 2).put) =
      read m (ele + 4) (2 * (eleNums m ele).toNat) := flatMap_getWords (.word (by decide)) _ _ _
  have hvendor : ((get m ele).vendor.flatMap (Format.word 32 4).put) =
      read m (ele + 4 + (eleNums m ele).toNat * 2) (4 * (eleNumv m ele).toNat) :=
    flatMap_getWords (.word (by decide)) _ _ _
  have hloc : (Format.word 16 2).put (get m ele).loc = read m ele 2 :=
    (Format.Exact.word (by decide)).put_get _ (length_read m ele 2)
  have hcounts : [BitVec.ofNat 8 (get m ele).sig.length, BitVec.ofNat 8 (get m ele).vendor.length] =
      read m (ele + 2) 2 := by
    have hs : (get m ele).sig.length = (eleNums m ele).toNat := length_getWords _ _ _ _
    have hv : (get m ele).vendor.length = (eleNumv m ele).toNat := length_getWords _ _ _ _
    rw [hs, hv, BitVec.ofNat_toNat, BitVec.ofNat_toNat, BitVec.setWidth_eq, BitVec.setWidth_eq,
      read_two]
    rfl
  unfold put
  rw [hsig, hvendor, hloc, hcounts, Nat.mul_comm _ 2, ← read_add m (ele + 4),
    ← read_add m (ele + 2) 2, ← read_add m ele 2]
  refine congrArg (read m ele) ?_
  unfold getCpsEleLen offsetMdSig
  omega

theorem get_put (m : ℕ → Byte) (ele : ℕ) (r : ElementRecord)
    (h : read m ele r.put.length = r.put) : get m ele = r := by
  obtain ⟨loc, sig, vendor, hsiglt, hvendorlt⟩ := r
  unfold put at h
  rw [read_append_iff, read_append_iff, read_append_iff,
    (Format.Exact.word (by decide)).length_put] at h
  obtain ⟨hloc, hcounts, hsig, hvendor⟩ := h
  have hnums : (eleNums m ele).toNat = sig.length := by
    have hhead := (List.cons.inj hcounts).1
    show (m (ele + 2)).toNat = _
    rw [show m (ele + 2) = _ from hhead, BitVec.toNat_ofNat, Nat.mod_eq_of_lt hsiglt]
  have hnumv : (eleNumv m ele).toNat = vendor.length := by
    have hhead := (List.cons.inj (List.cons.inj hcounts).2).1
    show (m (ele + 3)).toNat = _
    rw [show m (ele + 3) = _ from hhead, BitVec.toNat_ofNat, Nat.mod_eq_of_lt hvendorlt]
  have hfits16 : ∀ v ∈ sig, (Format.word 16 2).Fits v := fun v _ => Format.fits_word v.isLt
  have hfits32 : ∀ v ∈ vendor, (Format.word 32 4).Fits v := fun v _ => Format.fits_word v.isLt
  have hl : (Format.word 16 2).get (read m ele 2) = loc := by
    rw [show read m ele 2 = _ from hloc]
    exact Format.fits_word loc.isLt
  have hs : mdSig m ele = sig := by
    unfold mdSig
    rw [hnums]
    exact getWords_eq (.word (by decide)) hfits16 hsig
  have hv : cpsVdModelIds m ele = vendor := by
    unfold cpsVdModelIds
    rw [hnums, hnumv]
    refine getWords_eq (.word (by decide)) hfits32 ?_
    rw [length_flatMap_put (.word (by decide)) sig, Nat.mul_comm] at hvendor
    exact hvendor
  unfold get
  congr

end ElementRecord

/-- The elements of a page as records of the library. -/
def eleKind : Kind Byte ElementRecord where
  put := ElementRecord.put
  get := ElementRecord.get
  len := getCpsEleLen
  len_pos m p := by
    unfold getCpsEleLen offsetMdSig
    omega
  put_get := ElementRecord.put_get
  get_put := ElementRecord.get_put

/-! ### The page -/

variable {m : ℕ → Byte} {lenPage0 : BitVec 32} {rs : List ElementRecord}

/-- The bytes of the page behind its head are these elements. -/
def IsPage (m : ℕ → Byte) (lenPage0 : BitVec 32) (rs : List ElementRecord) : Prop :=
  eleKind.At m offsetEle rs ∧ eleKind.finish offsetEle rs = lenPage0.toNat

/-- The page ends in one to three bytes that are not a record. -/
def ShortRest (m : ℕ → Byte) (lenPage0 : BitVec 32) : Prop :=
  ∃ rs, eleKind.At m offsetEle rs ∧ eleKind.finish offsetEle rs < lenPage0.toNat ∧
    lenPage0.toNat < eleKind.finish offsetEle rs + offsetMdSig

/-- What the traversals of a page are to do. -/
structure CpsTraversed (m : ℕ → Byte) (lenPage0 : BitVec 32) : Prop where
  inside : ∀ a ∈ (getEleCntByTraversalCps m lenPage0).2, a < lenPage0.toNat
  counts : ∀ rs, IsPage m lenPage0 rs → (getEleCntByTraversalCps m lenPage0).1.toNat = rs.length
  rejects : (¬ ∃ rs, IsPage m lenPage0 rs) → (getEleCntByTraversalCps m lenPage0).1 = 0
  finds : ∀ rs, IsPage m lenPage0 rs → ∀ nodeAdr objAdr modelId sigModel, nodeAdr ≤ objAdr →
    (getEleOffsetByModel m lenPage0 nodeAdr objAdr modelId sigModel ≠ modelNotFound ↔
      ∃ r ∈ rs, r.Lists modelId sigModel)

/-- The length fits an `int`, with a record behind it. -/
def FitsInt (lenPage0 : BitVec 32) : Prop := lenPage0.toNat + 0x600 < 2 ^ 31

theorem totalLenEle_eq (h : FitsInt lenPage0) : totalLenEle lenPage0 = lenPage0.toNat - 10 := by
  have hlen : lenPage0.toInt = lenPage0.toNat := by
    unfold FitsInt at h
    exact BitVec.toInt_eq_toNat_of_lt (by omega)
  unfold FitsInt at h
  unfold totalLenEle
  rw [BitVec.toInt_sub, hlen]
  exact Int.bmod_eq_of_le (by show _ ≤ _ - 10; omega) (by show _ - 10 < _; omega)

theorem finish_ge {n : ℕ} (h : eleKind.finish offsetEle rs = n) : offsetEle ≤ n :=
  h ▸ Nat.le_add_right _ _

theorem exists_total (h : FitsInt lenPage0) (hge : offsetEle ≤ lenPage0.toNat) :
    ∃ q : ℕ, lenPage0.toNat = offsetEle + q ∧ totalLenEle lenPage0 = q := by
  obtain ⟨q, hq⟩ := Nat.exists_eq_add_of_le hge
  refine ⟨q, hq, ?_⟩
  rw [totalLenEle_eq h, hq]
  unfold offsetEle
  omega

/-! ### The count -/

variable {total : ℤ} {pos q cnt : ℕ}

theorem getCpsEleLen_ge (m : ℕ → Byte) (ele : ℕ) : offsetMdSig ≤ getCpsEleLen m ele := by
  unfold getCpsEleLen
  omega

/-- The loop goes over the elements, and looks at no place behind them. -/
theorem eleCntLoop_at (total : ℤ) (pos cnt : ℕ) (hat : eleKind.At m (offsetEle + pos) rs)
    (hfin : eleKind.finish (offsetEle + pos) rs = offsetEle + q) (hq : q ≤ total) :
    ∃ reads, (∀ a ∈ reads, a < offsetEle + q) ∧ eleCntLoop m total pos cnt =
      ((eleCntLoop m total q (cnt + rs.length)).1,
        reads ++ (eleCntLoop m total q (cnt + rs.length)).2) := by
  induction rs generalizing pos cnt with
  | nil =>
    obtain rfl : pos = q := Nat.add_left_cancel hfin
    exact ⟨[], fun a ha => absurd ha List.not_mem_nil, rfl⟩
  | cons r rs ih =>
    have hge := getCpsEleLen_ge m (offsetEle + pos)
    have hnext := (Kind.at_cons.mp hat).2
    rw [Kind.finish_cons hat] at hfin
    have hlen : eleKind.len m (offsetEle + pos) = getCpsEleLen m (offsetEle + pos) := rfl
    rw [hlen, Nat.add_assoc] at hnext hfin
    have hle : pos + getCpsEleLen m (offsetEle + pos) ≤ q := by
      unfold Kind.finish at hfin
      omega
    obtain ⟨reads, hreads, heq⟩ := ih _ (cnt + 1) hnext hfin
    refine ⟨(offsetEle + pos + 2) :: (offsetEle + pos + 3) :: reads, ?_, ?_⟩
    · unfold offsetMdSig at hge
      intro a ha
      rcases List.mem_cons.mp ha with rfl | ha
      · omega
      · rcases List.mem_cons.mp ha with rfl | ha
        · omega
        · exact hreads a ha
    · unfold offsetMdSig at hge
      rw [eleCntLoop, if_pos (by omega)]
      dsimp only
      rw [if_neg (by omega), heq, List.length_cons, Nat.add_assoc, Nat.add_comm 1]
      rfl

theorem eleCntLoop_end (h : total ≤ q) :
    eleCntLoop m total q cnt = (BitVec.ofNat 8 cnt, []) := by
  rw [eleCntLoop, if_neg (by omega)]

/-- A record that does not fit. -/
theorem eleCntLoop_short (hq : q < total) (h : total < q + getCpsEleLen m (offsetEle + q)) :
    eleCntLoop m total q cnt = (0, [offsetEle + q + 2, offsetEle + q + 3]) := by
  rw [eleCntLoop, if_pos hq]
  exact if_pos (by push_cast; exact h)

/-- A page, as it is. -/
theorem getEleCnt_of_page (hfit : FitsInt lenPage0) (h : IsPage m lenPage0 rs) :
    (getEleCntByTraversalCps m lenPage0).1 = BitVec.ofNat 8 rs.length ∧
      ∀ a ∈ (getEleCntByTraversalCps m lenPage0).2, a < lenPage0.toNat := by
  obtain ⟨hat, hfin⟩ := h
  obtain ⟨q, hq, htotal⟩ := exists_total hfit (finish_ge hfin)
  obtain ⟨reads, hreads, heq⟩ :=
    eleCntLoop_at (q : ℤ) 0 0 hat (hfin.trans hq) (le_refl (q : ℤ))
  unfold getEleCntByTraversalCps
  rw [htotal, heq, eleCntLoop_end le_rfl, Nat.zero_add, List.append_nil, hq]
  exact ⟨rfl, hreads⟩

/-- Elements, and bytes behind them that are none. -/
theorem getEleCnt_of_rest (hfit : FitsInt lenPage0) (hat : eleKind.At m offsetEle rs)
    (hlt : eleKind.finish offsetEle rs < lenPage0.toNat)
    (hover : lenPage0.toNat <
      eleKind.finish offsetEle rs + getCpsEleLen m (eleKind.finish offsetEle rs)) :
    (getEleCntByTraversalCps m lenPage0).1 = 0 ∧
      ((∀ a ∈ (getEleCntByTraversalCps m lenPage0).2, a < lenPage0.toNat) ↔
        eleKind.finish offsetEle rs + offsetMdSig ≤ lenPage0.toNat) := by
  obtain ⟨q, hq⟩ : ∃ q, eleKind.finish offsetEle rs = offsetEle + q :=
    Nat.exists_eq_add_of_le (Nat.le_add_right _ _)
  rw [hq] at hlt hover ⊢
  have htotal := totalLenEle_eq hfit
  have hlen : totalLenEle lenPage0 = lenPage0.toNat - offsetEle := htotal
  obtain ⟨reads, hreads, heq⟩ :=
    eleCntLoop_at (totalLenEle lenPage0) 0 0 hat hq (by omega)
  unfold getEleCntByTraversalCps
  rw [heq, eleCntLoop_short (by omega) (by omega)]
  refine ⟨rfl, ?_⟩
  unfold offsetMdSig
  dsimp only
  constructor
  · intro h
    -- both counts are read before the length of the record is known
    have hlast := h (offsetEle + q + 3) (List.mem_append_right _ (by simp))
    omega
  · intro hle a ha
    rcases List.mem_append.mp ha with ha | ha
    · exact (hreads a ha).trans (by omega)
    · rcases List.mem_pair.mp ha with rfl | rfl
      · omega
      · omega

/-! ### The search -/

section

variable {nodeAdr objAdr : BitVec 16} {modelId : BitVec 32} {sigModel : Bool}

/-- The element that stands there lists the model. -/
theorem eleHasModel_iff (m : ℕ → Byte) (ele : ℕ) (modelId : BitVec 32) (sigModel : Bool) :
    eleHasModel m ele modelId sigModel ↔ (ElementRecord.get m ele).Lists modelId sigModel := by
  unfold eleHasModel ElementRecord.Lists ElementRecord.get
  cases sigModel with
  | true =>
    dsimp only
    rw [if_pos rfl, if_pos rfl, List.any_eq_true]
    simp only [beq_iff_eq]
  | false =>
    dsimp only
    rw [if_neg Bool.false_ne_true, if_neg Bool.false_ne_true, List.any_eq_true]
    simp only [beq_iff_eq, exists_eq_right]

/-- The search over elements, the first of them with this index, up to the end of the page. -/
theorem eleOffsetLoop_at (modelId : BitVec 32) (sigModel : Bool) (haddr : nodeAdr ≤ objAdr)
    (pos index : ℕ)
    (hat : eleKind.At m (offsetEle + pos) rs)
    (hfin : eleKind.finish (offsetEle + pos) rs = offsetEle + q) :
    (∃ r ∈ rs, r.Lists modelId sigModel) ∧ (∃ i < rs.length,
      eleOffsetLoop m q nodeAdr objAdr modelId sigModel pos index = BitVec.ofNat 8 (index + i)) ∨
    (¬ ∃ r ∈ rs, r.Lists modelId sigModel) ∧
      eleOffsetLoop m q nodeAdr objAdr modelId sigModel pos index = modelNotFound := by
  induction rs generalizing pos index with
  | nil =>
    obtain rfl : pos = q := Nat.add_left_cancel hfin
    refine .inr ⟨fun h => ?_, ?_⟩
    · obtain ⟨r, hr, -⟩ := h
      exact absurd hr List.not_mem_nil
    · rw [eleOffsetLoop, if_neg (lt_irrefl _)]
  | cons r rs ih =>
    have hge := getCpsEleLen_ge m (offsetEle + pos)
    unfold offsetMdSig at hge
    obtain ⟨hr, hnext⟩ := Kind.at_cons.mp hat
    have hhas := eleHasModel_iff m (offsetEle + pos) modelId sigModel
    rw [show ElementRecord.get m (offsetEle + pos) = r from hr] at hhas
    rw [Kind.finish_cons hat] at hfin
    have hlen : eleKind.len m (offsetEle + pos) = getCpsEleLen m (offsetEle + pos) := rfl
    rw [hlen, Nat.add_assoc] at hnext hfin
    have hlt : (pos : ℤ) < q := by
      unfold Kind.finish at hfin
      omega
    rw [eleOffsetLoop, if_pos hlt]
    dsimp only
    by_cases hlists : r.Lists modelId sigModel
    · rw [if_pos ⟨haddr, hhas.mpr hlists⟩]
      exact .inl ⟨⟨r, List.mem_cons_self, hlists⟩, 0, Nat.succ_pos _, rfl⟩
    · rw [if_neg fun h => hlists (hhas.mp h.2)]
      have hmem : (∃ r' ∈ r :: rs, r'.Lists modelId sigModel) ↔
          ∃ r' ∈ rs, r'.Lists modelId sigModel := by
        simp only [List.mem_cons, exists_eq_or_imp]
        exact or_iff_right hlists
      rw [hmem]
      refine (ih _ (index + 1) hnext hfin).imp_left ?_
      rintro ⟨hex, i, hi, heq⟩
      exact ⟨hex, i + 1, Nat.succ_lt_succ hi, heq.trans (by rw [Nat.add_assoc, Nat.add_comm 1])⟩

theorem getEleOffset_of_page (hfit : FitsInt lenPage0) (h : IsPage m lenPage0 rs)
    (haddr : nodeAdr ≤ objAdr) (hlen : rs.length < 256) :
    getEleOffsetByModel m lenPage0 nodeAdr objAdr modelId sigModel ≠ modelNotFound ↔
      ∃ r ∈ rs, r.Lists modelId sigModel := by
  obtain ⟨hat, hfin⟩ := h
  obtain ⟨q, hq, htotal⟩ := exists_total hfit (finish_ge hfin)
  unfold getEleOffsetByModel
  rw [htotal]
  rcases eleOffsetLoop_at modelId sigModel haddr 0 0 hat (hfin.trans hq) with
    ⟨hex, i, hi, heq⟩ | ⟨hnone, heq⟩
  · -- element 255 would be the offset that says there is none
    rw [heq, Nat.zero_add]
    refine iff_of_true ?_ hex
    intro hnot
    have hnat := congrArg BitVec.toNat hnot
    rw [BitVec.toNat_ofNat, Nat.mod_eq_of_lt (by omega)] at hnat
    have : modelNotFound.toNat = 255 := rfl
    omega
  · exact iff_of_false (fun hne => hne heq) hnone

end

/-! ### Both traversals -/

/-- **The traversals of a page agree with what it is**, unless one to three bytes are left over, or
there are more elements than a byte counts. -/
theorem cpsTraversed_iff (m : ℕ → Byte) (hfit : FitsInt lenPage0) :
    CpsTraversed m lenPage0 ↔
      ¬ ShortRest m lenPage0 ∧ ∀ rs, IsPage m lenPage0 rs → rs.length < 256 := by
  constructor
  · intro h
    refine ⟨?_, fun rs hpage => ?_⟩
    · rintro ⟨rs, hat, hlt, hshort⟩
      have hge := getCpsEleLen_ge m (eleKind.finish offsetEle rs)
      have hin := (getEleCnt_of_rest hfit hat hlt (by omega)).2.mp h.inside
      omega
    · rw [← h.counts rs hpage]
      exact BitVec.isLt _
  · rintro ⟨hrest, hcount⟩
    -- the page is elements and a rest
    have hpage : (∃ rs, IsPage m lenPage0 rs) ∨ (¬ ∃ rs, IsPage m lenPage0 rs) ∧
        (getEleCntByTraversalCps m lenPage0).1 = 0 ∧
        ∀ a ∈ (getEleCntByTraversalCps m lenPage0).2, a < lenPage0.toNat := by
      by_cases hex : ∃ rs, IsPage m lenPage0 rs
      · exact .inl hex
      · refine .inr ⟨hex, ?_⟩
        rcases Nat.lt_or_ge lenPage0.toNat offsetEle with hhead | hhead
        · have htotal := totalLenEle_eq hfit
          unfold offsetEle at hhead
          unfold getEleCntByTraversalCps
          rw [eleCntLoop_end (by omega)]
          exact ⟨rfl, fun a ha => absurd ha List.not_mem_nil⟩
        · obtain ⟨rs, hat, hle, hend | hover⟩ := eleKind.exists_rest m hhead
          · exact absurd ⟨rs, hat, hend⟩ hex
          · have hlt := Nat.lt_of_le_of_ne hle fun hend => hex ⟨rs, hat, hend⟩
            obtain ⟨hzero, hin⟩ := getEleCnt_of_rest hfit hat hlt hover
            refine ⟨hzero, hin.mpr ?_⟩
            by_contra hshort
            exact hrest ⟨rs, hat, hlt, not_le.mp hshort⟩
    refine ⟨?_, fun rs hrs => ?_, fun hex => ?_,
      fun rs hrs nodeAdr objAdr modelId sigModel ha => ?_⟩
    · rcases hpage with ⟨rs, hrs⟩ | h
      · exact (getEleCnt_of_page hfit hrs).2
      · exact h.2.2
    · rw [(getEleCnt_of_page hfit hrs).1, BitVec.toNat_ofNat]
      exact Nat.mod_eq_of_lt (hcount rs hrs)
    · rcases hpage with h | h
      · exact absurd h hex
      · exact h.2.1
    · exact getEleOffset_of_page hfit hrs ha (hcount rs hrs)

theorem cpsTraversed_iff_blank : CpsTraversed (fun _ => 0) 14 ↔
    ¬ ShortRest (fun _ => 0) 14 ∧ ∀ rs, IsPage (fun _ => 0) 14 rs → rs.length < 256 :=
  cpsTraversed_iff (fun _ => 0) (by
    unfold FitsInt
    decide)

/-- A head and one byte: the counts would be the bytes 12 and 13. -/
theorem cpsTraversed_refuted :
    ¬ ∀ (m : ℕ → Byte) (lenPage0 : BitVec 32), FitsInt lenPage0 → CpsTraversed m lenPage0 := by
  intro h
  have htotal : totalLenEle 11 = 1 := by decide
  have hin := (h (fun _ => 0) 11 (by unfold FitsInt; decide)).inside 12
  unfold getEleCntByTraversalCps at hin
  rw [htotal, eleCntLoop_short (by decide) (by decide)] at hin
  exact absurd (hin List.mem_cons_self) (by decide)

end PirMesh
