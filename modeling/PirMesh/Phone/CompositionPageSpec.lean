import PirMesh.Node.Composition
import PirMesh.Phone.CompositionPage

/-! # Phone — What page 0 is read from

Where an element comes out, an element record stands that lies in the octets, and the offset goes
to its end (`initWithCompositionData_eq_ok`).  So the loop ends with elements exactly where the
octets behind the head are whole records (`readElements_eq_ok`).  The sum that is to keep the
reader inside is one too small: a record that lacks its last octet is read beyond the end, and one
that lacks more is nil (`compositionPage_iff`). -/

namespace PirMesh.CompositionPage

open Nor Reassembly Records LibTools MeshDictionary

/-- The octets as memory. -/
def mem (data : List Byte) : ℕ → Byte := fun i => data.getD i 0

variable {data : List Byte} {offset n : ℕ}

/-! ### Copies -/

theorem read_mem (h : offset + n ≤ data.length) :
    read (mem data) offset n = (data.drop offset).take n := by
  refine List.ext_getElem (by simp; omega) fun i hi _ => ?_
  rw [length_read] at hi
  rw [getElem_read, List.getElem_take, List.getElem_drop, mem]
  exact List.getD_eq_getElem _ _ (by omega)

theorem memcpy_eq_ok {l : List Byte} :
    memcpy data offset n = .ok l ↔ offset + n ≤ data.length ∧ l = read (mem data) offset n := by
  unfold memcpy
  split_ifs with h
  · rw [read_mem h]
    exact ⟨fun hl => ⟨h, (Except.ok.inj hl).symm⟩, fun hl => congrArg _ hl.2.symm⟩
  · exact iff_of_false nofun fun hl => h hl.1

theorem uint8At_eq_ok {b : Byte} :
    uint8At data offset = .ok b ↔ offset + 1 ≤ data.length ∧ b = mem data offset := by
  unfold uint8At
  rw [bind_eq_ok]
  constructor
  · rintro ⟨l, hl, hb⟩
    obtain ⟨hle, rfl⟩ := memcpy_eq_ok.mp hl
    exact ⟨hle, (Except.ok.inj hb).symm⟩
  · rintro ⟨hle, rfl⟩
    exact ⟨_, memcpy_eq_ok.mpr ⟨hle, rfl⟩, rfl⟩

theorem uint16At_eq_ok {v : BitVec 16} :
    uint16At data offset = .ok v ↔
      offset + 2 ≤ data.length ∧ v = (Format.word 16 2).get (read (mem data) offset 2) := by
  unfold uint16At
  rw [bind_eq_ok]
  constructor
  · rintro ⟨l, hl, hv⟩
    obtain ⟨hle, rfl⟩ := memcpy_eq_ok.mp hl
    exact ⟨hle, (Except.ok.inj hv).symm⟩
  · rintro ⟨hle, rfl⟩
    exact ⟨_, memcpy_eq_ok.mpr ⟨hle, rfl⟩, rfl⟩

/-! ### Models -/

/-- A loop whose steps give known values where they are possible. -/
theorem mapM_eq_ok {α β : Type} {f : α → Except Fault β} {P : α → Prop} {g : α → β}
    (h : ∀ a b, f a = .ok b ↔ P a ∧ b = g a) {l : List α} {l' : List β} :
    l.mapM f = .ok l' ↔ (∀ a ∈ l, P a) ∧ l' = l.map g := by
  induction l generalizing l' with
  | nil =>
    rw [List.mapM_nil]
    exact ⟨fun hl => ⟨fun a ha => absurd ha List.not_mem_nil, (Except.ok.inj hl).symm⟩,
      fun hl => congrArg _ hl.2.symm⟩
  | cons a l ih =>
    rw [List.mapM_cons, bind_eq_ok, List.forall_mem_cons]
    constructor
    · rintro ⟨b, hb, hrest⟩
      obtain ⟨bs, hbs, hl⟩ := bind_eq_ok.mp hrest
      obtain ⟨ha, rfl⟩ := (h a b).mp hb
      obtain ⟨hall, rfl⟩ := ih.mp hbs
      exact ⟨⟨ha, hall⟩, (Except.ok.inj hl).symm⟩
    · rintro ⟨⟨ha, hall⟩, rfl⟩
      exact ⟨_, (h a _).mpr ⟨ha, rfl⟩, bind_eq_ok.mpr ⟨_, ih.mpr ⟨hall, rfl⟩, rfl⟩⟩

theorem sigModelAt_eq_ok (i : ℕ) (model : SigModelIDModel) :
    sigModelAt data offset i = .ok model ↔ offset + i * 2 + 2 ≤ data.length ∧
      model = initWithSigModelId
        ((Format.word 16 2).get (read (mem data) (offset + i * 2) 2)) := by
  unfold sigModelAt
  rw [bind_eq_ok]
  constructor
  · rintro ⟨v, hv, hmodel⟩
    obtain ⟨hle, rfl⟩ := uint16At_eq_ok.mp hv
    exact ⟨hle, (Except.ok.inj hmodel).symm⟩
  · rintro ⟨hle, rfl⟩
    exact ⟨_, uint16At_eq_ok.mpr ⟨hle, rfl⟩, rfl⟩

/-- The model's number stands above the company's. -/
theorem word_join (low high : List Byte) (hlow : low.length = 2) (hhigh : high.length = 2) :
    ((Format.word 16 2).get high).setWidth 32 <<< 16 ||| ((Format.word 16 2).get low).setWidth 32 =
      (Format.word 32 4).get (low ++ high) := by
  obtain ⟨b0, b1, rfl⟩ := List.length_eq_two.mp hlow
  obtain ⟨b2, b3, rfl⟩ := List.length_eq_two.mp hhigh
  have h0 := b0.isLt
  have h1 := b1.isLt
  have h2 := b2.isLt
  have h3 := b3.isLt
  refine BitVec.eq_of_toNat_eq ?_
  have hshift : (((Format.word 16 2).get [b2, b3]).setWidth 32 <<< 16).toNat =
      (b2.toNat + 256 * b3.toNat) <<< 16 := by
    simp only [Format.word, ofLE, BitVec.toNat_shiftLeft, BitVec.toNat_setWidth,
      BitVec.toNat_ofNat, Nat.shiftLeft_eq]
    omega
  have hlow : (((Format.word 16 2).get [b0, b1]).setWidth 32).toNat =
      b0.toNat + 256 * b1.toNat := by
    simp only [Format.word, ofLE, BitVec.toNat_setWidth, BitVec.toNat_ofNat]
    omega
  rw [BitVec.toNat_or, hshift, hlow, ← Nat.shiftLeft_add_eq_or_of_lt (by omega)]
  simp only [Format.word, ofLE, List.cons_append, List.nil_append, BitVec.toNat_ofNat,
    Nat.shiftLeft_eq]
  omega

theorem vendorModelAt_eq_ok (i : ℕ) (model : SigModelIDModel) :
    vendorModelAt data offset i = .ok model ↔ offset + i * 4 + 4 ≤ data.length ∧
      model = initWithVendorModelId
        ((Format.word 32 4).get (read (mem data) (offset + i * 4) 4)) := by
  have hread : read (mem data) (offset + i * 4) 4 =
      read (mem data) (offset + i * 4) 2 ++ read (mem data) (offset + i * 4 + 2) 2 :=
    read_add _ _ 2 2
  have hjoin := word_join (read (mem data) (offset + i * 4) 2)
    (read (mem data) (offset + i * 4 + 2) 2) (length_read _ _ _) (length_read _ _ _)
  unfold vendorModelAt
  rw [bind_eq_ok, hread, ← hjoin]
  constructor
  · rintro ⟨c, hc, hrest⟩
    obtain ⟨v, hv, hmodel⟩ := bind_eq_ok.mp hrest
    obtain ⟨-, rfl⟩ := uint16At_eq_ok.mp hc
    obtain ⟨hle, rfl⟩ := uint16At_eq_ok.mp hv
    exact ⟨hle, (Except.ok.inj hmodel).symm⟩
  · rintro ⟨hle, rfl⟩
    exact ⟨_, uint16At_eq_ok.mpr ⟨by omega, rfl⟩,
      bind_eq_ok.mpr ⟨_, uint16At_eq_ok.mpr ⟨hle, rfl⟩, rfl⟩⟩

/-! ### One element -/

def elementOf (r : ElementRecord) (index : Byte) : SigElementModel :=
  ⟨none, some (format04X r.loc.toNat), index, 0,
    some (r.sig.map initWithSigModelId ++ r.vendor.map initWithVendorModelId)⟩

/-- The places of a list of words, one after another. -/
theorem map_getWords {α β : Type} (F : Format α) (g : α → β) (p n : ℕ) :
    (List.range n).map (fun i => g (F.get (read (mem data) (p + i * F.size) F.size))) =
      (getWords F (mem data) p n).map g := by
  unfold getWords
  rw [List.map_map]
  refine List.map_congr_left fun i _ => ?_
  rw [Nat.mul_comm]
  rfl

/-- Where every model that is read lies in the octets, the record does. -/
theorem le_of_models {numS numV : ℕ} (hhead : offset + 4 ≤ data.length)
    (hsig : ∀ i ∈ List.range numS, offset + 4 + i * 2 + 2 ≤ data.length)
    (hvendor : ∀ i ∈ List.range numV, offset + 4 + numS * 2 + i * 4 + 4 ≤ data.length) :
    offset + (4 + numS * 2 + numV * 4) ≤ data.length := by
  rcases Nat.eq_zero_or_pos numV with hv | hv
  · rcases Nat.eq_zero_or_pos numS with hs | hs
    · omega
    · have hlast := hsig _ (List.mem_range.mpr (Nat.sub_lt hs Nat.one_pos))
      omega
  · have hlast := hvendor _ (List.mem_range.mpr (Nat.sub_lt hv Nat.one_pos))
    omega

/-- **An element comes out** where its record lies in the octets and an `int` holds its end. -/
theorem initWithCompositionData_eq_ok {element : SigElementModel} {next : ℕ} :
    initWithCompositionData data offset = .ok (some (element, next)) ↔
      offset + getCpsEleLen (mem data) offset ≤ data.length ∧
        offset + getCpsEleLen (mem data) offset < 2 ^ 31 ∧
        element = elementOf (.get (mem data) offset) 0 ∧
        next = offset + getCpsEleLen (mem data) offset := by
  have hsig : ∀ n, (List.range n).map (fun i => initWithSigModelId
      ((Format.word 16 2).get (read (mem data) (offset + 4 + i * 2) 2))) =
        (getWords (.word 16 2) (mem data) (offset + 4) n).map initWithSigModelId :=
    map_getWords (.word 16 2) initWithSigModelId _
  have hvendor : ∀ p n, (List.range n).map (fun i => initWithVendorModelId
      ((Format.word 32 4).get (read (mem data) (p + i * 4) 4))) =
        (getWords (.word 32 4) (mem data) p n).map initWithVendorModelId :=
    map_getWords (.word 32 4) initWithVendorModelId
  have hlen : getCpsEleLen (mem data) offset =
      4 + (mem data (offset + 2)).toNat * 2 + (mem data (offset + 3)).toNat * 4 := rfl
  constructor
  · -- every copy lies in the octets, so the last one does
    intro h
    obtain ⟨head, hhead, h⟩ := bind_eq_ok.mp h
    obtain ⟨rfl, -⟩ := int_eq_ok.mp hhead
    split_ifs at h with hshort
    · cases h
    obtain ⟨location, hlocation, h⟩ := bind_eq_ok.mp h
    obtain ⟨-, rfl⟩ := uint16At_eq_ok.mp hlocation
    obtain ⟨numS, hnumS, h⟩ := bind_eq_ok.mp h
    obtain ⟨-, rfl⟩ := uint8At_eq_ok.mp hnumS
    obtain ⟨numV, hnumV, h⟩ := bind_eq_ok.mp h
    obtain ⟨-, rfl⟩ := uint8At_eq_ok.mp hnumV
    obtain ⟨need, -, h⟩ := bind_eq_ok.mp h
    split_ifs at h
    · cases h
    obtain ⟨sig, hsigs, h⟩ := bind_eq_ok.mp h
    obtain ⟨hsigin, rfl⟩ := (mapM_eq_ok sigModelAt_eq_ok).mp hsigs
    obtain ⟨vendorOffset, hvendorOffset, h⟩ := bind_eq_ok.mp h
    obtain ⟨rfl, -⟩ := int_eq_ok.mp hvendorOffset
    obtain ⟨vendor, hvendors, h⟩ := bind_eq_ok.mp h
    obtain ⟨hvendorin, rfl⟩ := (mapM_eq_ok vendorModelAt_eq_ok).mp hvendors
    obtain ⟨last, hlast, h⟩ := bind_eq_ok.mp h
    obtain ⟨rfl, hint⟩ := int_eq_ok.mp hlast
    cases h
    refine ⟨le_of_models (by omega) hsigin hvendorin, by omega, ?_, by omega⟩
    rw [hsig, hvendor]
    rfl
  · rintro ⟨hle, hint, rfl, rfl⟩
    refine bind_eq_ok.mpr ⟨offset + 4, int_eq_ok.mpr ⟨rfl, by omega⟩, ?_⟩
    rw [if_neg (by omega)]
    refine bind_eq_ok.mpr ⟨_, uint16At_eq_ok.mpr ⟨by omega, rfl⟩, ?_⟩
    refine bind_eq_ok.mpr ⟨_, uint8At_eq_ok.mpr ⟨by omega, rfl⟩, ?_⟩
    refine bind_eq_ok.mpr ⟨_, uint8At_eq_ok.mpr ⟨by omega, rfl⟩, ?_⟩
    refine bind_eq_ok.mpr ⟨_, int_eq_ok.mpr ⟨rfl, by omega⟩, ?_⟩
    rw [if_neg (by omega)]
    refine bind_eq_ok.mpr ⟨_, (mapM_eq_ok sigModelAt_eq_ok).mpr ⟨fun i hi => ?_, rfl⟩, ?_⟩
    · have hlt := List.mem_range.mp hi
      omega
    refine bind_eq_ok.mpr ⟨_, int_eq_ok.mpr ⟨rfl, by omega⟩, ?_⟩
    refine bind_eq_ok.mpr ⟨_, (mapM_eq_ok vendorModelAt_eq_ok).mpr ⟨fun i hi => ?_, rfl⟩, ?_⟩
    · have hlt := List.mem_range.mp hi
      omega
    refine bind_eq_ok.mpr ⟨_, int_eq_ok.mpr ⟨rfl, by omega⟩, ?_⟩
    have hnext : offset + 4 + (mem data (offset + 2)).toNat * 2 +
        (mem data (offset + 3)).toNat * 4 = offset + getCpsEleLen (mem data) offset := by omega
    rw [hsig, hvendor, hnext]
    rfl

/-! ### The elements -/

/-- The elements of records, numbered from `count` on. -/
def elementsOf (count : ℕ) (rs : List ElementRecord) : List SigElementModel :=
  (rs.zipIdx count).map fun r => elementOf r.1 (BitVec.ofNat 8 r.2)

variable {count : ℕ} {rs : List ElementRecord}

theorem elementsOf_cons (count : ℕ) (r : ElementRecord) (rs : List ElementRecord) :
    elementsOf count (r :: rs) =
      elementOf r (BitVec.ofNat 8 count) :: elementsOf (count + 1) rs := by
  unfold elementsOf
  rw [List.zipIdx_cons, List.map_cons]

theorem map_eq_ok {α β : Type} {f : α → β} {x : Except Fault α} {b : β} :
    x.map f = .ok b ↔ ∃ a, x = .ok a ∧ b = f a := by
  cases x with
  | error fault => exact iff_of_false nofun fun ⟨_, h, _⟩ => nomatch h
  | ok a =>
    exact ⟨fun h => ⟨a, rfl, (Except.ok.inj h).symm⟩, fun ⟨_, h, hb⟩ =>
      congrArg _ (hb.trans (congrArg f (Except.ok.inj h).symm)).symm⟩

/-- Behind the end there is no element. -/
theorem readElements_end (data : List Byte) (count : ℕ) :
    readElements data data.length count = .ok [] := by
  rw [readElements, dif_neg (lt_irrefl _)]

/-- Where a record fits, its element is the first one. -/
theorem readElements_fit (hlt : offset < data.length)
    (hle : offset + getCpsEleLen (mem data) offset ≤ data.length)
    (hint : offset + getCpsEleLen (mem data) offset < 2 ^ 31) :
    readElements data offset count =
      (readElements data (offset + getCpsEleLen (mem data) offset) (count + 1)).map
        (elementOf (.get (mem data) offset) (BitVec.ofNat 8 count) :: ·) := by
  have hinit := initWithCompositionData_eq_ok.mpr ⟨hle, hint, rfl, rfl⟩
  rw [readElements, dif_pos hlt]
  split
  · rename_i hbad
    rw [hinit] at hbad
    cases hbad
  · rename_i hbad
    rw [hinit] at hbad
    cases hbad
  · rename_i element next hsome
    obtain ⟨-, -, rfl, rfl⟩ := initWithCompositionData_eq_ok.mp hsome
    rfl

/-- Where it does not, the loop ends without elements. -/
theorem readElements_misfit (hlt : offset < data.length)
    (hfit : ¬ (offset + getCpsEleLen (mem data) offset ≤ data.length ∧
      offset + getCpsEleLen (mem data) offset < 2 ^ 31)) (elements : List SigElementModel) :
    readElements data offset count ≠ .ok elements := by
  rw [readElements, dif_pos hlt]
  split
  · intro h
    cases h
  · intro h
    cases h
  · rename_i element next hsome
    obtain ⟨hend, hbound, -⟩ := initWithCompositionData_eq_ok.mp hsome
    exact absurd ⟨hend, hbound⟩ hfit

/-- **The loop ends with elements** exactly where the octets are whole records. -/
theorem readElements_eq_ok (hint : offset < 2 ^ 31) (hle : offset ≤ data.length)
    {elements : List SigElementModel} :
    readElements data offset count = .ok elements ↔
      data.length < 2 ^ 31 ∧ ∃ rs, eleKind.At (mem data) offset rs ∧
        eleKind.finish offset rs = data.length ∧ elements = elementsOf count rs := by
  -- by induction on what is left
  induction hn : data.length - offset using Nat.strongRecOn
    generalizing offset count elements with
  | ind n ih =>
    rcases Nat.eq_or_lt_of_le hle with rfl | hlt
    · rw [readElements_end]
      constructor
      · intro h
        exact ⟨hint, [], Kind.at_nil _ _, rfl, (Except.ok.inj h).symm⟩
      · rintro ⟨-, rs, hat, hfinish, rfl⟩
        rw [hat.eq_nil hfinish]
        rfl
    by_cases hfit : offset + getCpsEleLen (mem data) offset ≤ data.length ∧
        offset + getCpsEleLen (mem data) offset < 2 ^ 31
    · have hpos : 0 < getCpsEleLen (mem data) offset := eleKind.len_pos (mem data) offset
      have hrest (l : List SigElementModel) : readElements data
          (offset + getCpsEleLen (mem data) offset) (count + 1) = .ok l ↔ _ :=
        ih (data.length - (offset + getCpsEleLen (mem data) offset)) (by omega) hfit.2 hfit.1 rfl
      rw [readElements_fit hlt hfit.1 hfit.2, map_eq_ok]
      constructor
      · rintro ⟨l, hl, rfl⟩
        obtain ⟨hbound, rs, hat, hfinish, rfl⟩ := (hrest l).mp hl
        have hcons : eleKind.At (mem data) offset (.get (mem data) offset :: rs) :=
          Kind.at_cons.mpr ⟨rfl, hat⟩
        exact ⟨hbound, _, hcons, (Kind.finish_cons hcons).trans hfinish,
          (elementsOf_cons _ _ _).symm⟩
      · rintro ⟨hbound, rs, hat, hfinish, rfl⟩
        obtain ⟨rs', rfl, hat', hfinish'⟩ := hat.exists_cons (hfinish ▸ hlt)
        exact ⟨_, (hrest _).mpr ⟨hbound, rs', hat', hfinish'.trans hfinish, rfl⟩,
          elementsOf_cons _ _ _⟩
    · refine iff_of_false (readElements_misfit hlt hfit elements) ?_
      -- the record that stands there would lie in the octets
      rintro ⟨hbound, rs, hat, hfinish, -⟩
      obtain ⟨rs', -, -, hfinish'⟩ := hat.exists_cons (hfinish ▸ hlt)
      have hend : offset + getCpsEleLen (mem data) offset ≤ data.length :=
        hfinish ▸ hfinish' ▸ Kind.le_finish _ _
      exact hfit ⟨hend, by omega⟩

/-! ### The octets of a page -/

/-- Whole records up to the end. -/
theorem at_end_iff (hle : offset ≤ data.length) :
    eleKind.At (mem data) offset rs ∧ eleKind.finish offset rs = data.length ↔
      data.drop offset = eleKind.putAll rs := by
  have hall : read (mem data) offset (data.length - offset) = data.drop offset := by
    rw [read_mem (by omega)]
    exact List.take_of_length_le (le_of_eq List.length_drop)
  unfold Kind.At Kind.finish
  constructor
  · rintro ⟨hat, hfinish⟩
    have hlen : (eleKind.putAll rs).length = data.length - offset := by omega
    rw [← hall, ← hlen, hat]
  · intro h
    have hlen : (eleKind.putAll rs).length = data.length - offset := by
      rw [← h, List.length_drop]
    rw [hlen, hall]
    exact ⟨h, by omega⟩

/-- **When a page is read safely**: it is too short for a head and not empty, or whole elements
follow the head. -/
theorem safe_iff (parameters : List Byte) :
    Safe parameters ↔ (0 < parameters.length ∧ parameters.length < 11) ∨
      (11 ≤ parameters.length ∧ parameters.length < 2 ^ 31 ∧
        ∃ rs, parameters.drop 11 = eleKind.putAll rs) := by
  unfold Safe initWithParameters
  by_cases hshort : 0 < parameters.length ∧ parameters.length < 11
  · exact iff_of_true ⟨none, if_pos hshort⟩ (.inl hshort)
  rw [if_neg hshort, or_iff_right hshort]
  constructor
  · rintro ⟨page, h⟩
    -- no octets at all would be read at 1
    obtain ⟨company, hcompany, h⟩ := bind_eq_ok.mp h
    obtain ⟨product, -, h⟩ := bind_eq_ok.mp h
    obtain ⟨version, -, h⟩ := bind_eq_ok.mp h
    obtain ⟨crpl, -, h⟩ := bind_eq_ok.mp h
    obtain ⟨features, -, h⟩ := bind_eq_ok.mp h
    obtain ⟨elements, helements, -⟩ := bind_eq_ok.mp h
    obtain ⟨hin, -⟩ := uint16At_eq_ok.mp hcompany
    have hge : 11 ≤ parameters.length := by omega
    obtain ⟨hint, rs, hat, hfinish, -⟩ := (readElements_eq_ok (by decide) hge).mp helements
    exact ⟨hge, hint, rs, (at_end_iff hge).mp ⟨hat, hfinish⟩⟩
  · rintro ⟨hge, hint, rs, hrs⟩
    obtain ⟨hat, hfinish⟩ := (at_end_iff hge).mpr hrs
    have helements : readElements parameters 11 0 = .ok _ :=
      (readElements_eq_ok (by decide) hge).mpr ⟨hint, rs, hat, hfinish, rfl⟩
    have hfield : ∀ k, k + 2 ≤ 11 → uint16At parameters k = .ok _ :=
      fun k hk => uint16At_eq_ok.mpr ⟨by omega, rfl⟩
    exact ⟨_, bind_eq_ok.mpr ⟨_, hfield 1 (by decide), bind_eq_ok.mpr ⟨_, hfield 3 (by decide),
      bind_eq_ok.mpr ⟨_, hfield 5 (by decide), bind_eq_ok.mpr ⟨_, hfield 7 (by decide),
        bind_eq_ok.mpr ⟨_, hfield 9 (by decide), bind_eq_ok.mpr ⟨_, helements, rfl⟩⟩⟩⟩⟩⟩⟩

/-! ### What an element is read back as -/

theorem vendorId_toNat (c v : BitVec 16) :
    ((Format.word 32 4).get (uint16Bytes c ++ uint16Bytes v)).toNat =
      c.toNat + 65536 * v.toNat := by
  have hc := c.isLt
  have hv := v.isLt
  simp only [Format.word, uint16Bytes, toLE, ofLE, List.cons_append, List.nil_append,
    BitVec.toNat_ofNat]
  omega

/-- The record of an element, as far as its counts go. -/
def recordOf (element : SigElementModel) : ElementRecord where
  loc := getSigLocation element
  sig := ((sigModels element).map getIntModelIdentifier).take 255
  vendor := ((vendorModels element).map fun model => (Format.word 32 4).get
    (uint16Bytes (getIntCompanyIdentifier model) ++ uint16Bytes (getIntModelIdentifier model))).take
      255
  sig_lt := Nat.lt_succ_of_le (List.length_take_le _ _)
  vendor_lt := Nat.lt_succ_of_le (List.length_take_le _ _)

/-- The models fit the counts. -/
def Counted (element : SigElementModel) : Prop :=
  (sigModels element).length ≤ 255 ∧ (vendorModels element).length ≤ 255

variable {element : SigElementModel}

theorem Counted.sig (h : Counted element) :
    (recordOf element).sig = (sigModels element).map getIntModelIdentifier :=
  List.take_of_length_le (by rw [List.length_map]; exact h.1)

theorem Counted.vendor (h : Counted element) :
    (recordOf element).vendor = (vendorModels element).map fun model => (Format.word 32 4).get
      (uint16Bytes (getIntCompanyIdentifier model) ++
        uint16Bytes (getIntModelIdentifier model)) :=
  List.take_of_length_le (by rw [List.length_map]; exact h.2)

theorem getElementData_eq (h : Counted element) :
    getElementData element = (recordOf element).put := by
  have hput : ∀ c v : BitVec 16, (Format.word 32 4).put ((Format.word 32 4).get
      (uint16Bytes c ++ uint16Bytes v)) = uint16Bytes c ++ uint16Bytes v :=
    fun c v => (Format.Exact.word (by decide)).put_get _ rfl
  unfold getElementData ElementRecord.put
  rw [h.sig, h.vendor, List.length_map, List.length_map, List.flatMap_map, List.flatMap_map]
  simp only [hput]
  rfl

theorem length_format04X (v : BitVec 16) : (format04X v.toNat).length = 4 := by
  have hlt : v.toNat < 16 ^ 4 := v.isLt
  rw [format04X, if_pos hlt]
  rfl

theorem getIntModelIdentifier_sig (v : BitVec 16) :
    getIntModelIdentifier (initWithSigModelId v) = v := by
  have hlen : ((initWithSigModelId v).modelId.getD []).length = 4 := length_format04X v
  unfold getIntModelIdentifier
  dsimp only
  rw [if_pos hlen]
  refine (uint16From16String_format v.isLt).trans ?_
  rw [BitVec.ofNat_toNat, BitVec.setWidth_eq]

/-- The text of a vendor model: the model's number, and the company's. -/
theorem format08X_eq (x : BitVec 32) :
    format08X x = format04X (x.toNat / 65536) ++ format04X (x.toNat % 65536) := by
  have hx := x.isLt
  have hdigit : ∀ i, x.toNat / 65536 / 16 ^ i % 16 = x.toNat / 16 ^ (i + 4) % 16 := by
    intro i
    have h16 : (65536 : ℕ) = 16 ^ 4 := rfl
    rw [h16, Nat.div_div_eq_div_mul, ← Nat.pow_add, Nat.add_comm]
  have hdigit' : ∀ i < 4, x.toNat % 65536 / 16 ^ i % 16 = x.toNat / 16 ^ i % 16 := by
    intro i hi
    obtain rfl | rfl | rfl | rfl : i = 0 ∨ i = 1 ∨ i = 2 ∨ i = 3 := by omega
    all_goals omega
  have hlow : x.toNat % 65536 < 16 ^ 4 := Nat.mod_lt _ (by decide)
  unfold format04X
  rw [if_pos (by omega), if_pos hlow]
  simp only [List.map_cons, List.map_nil, hdigit]
  rw [hdigit' 3 (by decide), hdigit' 2 (by decide), hdigit' 1 (by decide), hdigit' 0 (by decide)]
  rfl

theorem vendorModelId (c v : BitVec 16) {model : SigModelIDModel}
    (hmodel : model = initWithVendorModelId
      ((Format.word 32 4).get (uint16Bytes c ++ uint16Bytes v))) :
    getIntCompanyIdentifier model = c ∧ getIntModelIdentifier model = v := by
  have hc := c.isLt
  have hid := vendorId_toNat c v
  have hlow : (c.toNat + 65536 * v.toNat) % 65536 = c.toNat := by omega
  have hhigh : (c.toNat + 65536 * v.toNat) / 65536 = v.toNat := by omega
  have htext : model.modelId.getD [] = format04X v.toNat ++ format04X c.toNat := by
    rw [hmodel]
    refine (format08X_eq _).trans ?_
    rw [hid, hlow, hhigh]
  have hlen : (model.modelId.getD []).length = 8 := by
    rw [htext, List.length_append, length_format04X, length_format04X]
  unfold getIntCompanyIdentifier getIntModelIdentifier
  dsimp only
  rw [if_pos hlen, if_neg (by omega), if_pos hlen, htext, List.drop_left' (length_format04X v),
    List.take_left' (length_format04X v), uint16From16String_format hc,
    uint16From16String_format v.isLt, BitVec.ofNat_toNat, BitVec.ofNat_toNat, BitVec.setWidth_eq,
    BitVec.setWidth_eq]
  exact ⟨rfl, rfl⟩

theorem sigModels_elementOf (r : ElementRecord) (index : Byte) :
    sigModels (elementOf r index) = r.sig.map initWithSigModelId ∧
      vendorModels (elementOf r index) = r.vendor.map initWithVendorModelId := by
  have hsig : ∀ v, isBluetoothSIGAssigned (initWithSigModelId v) = true :=
    fun v => beq_iff_eq.mpr (length_format04X v)
  have hvendor : ∀ x, isBluetoothSIGAssigned (initWithVendorModelId x) = false := fun _ => rfl
  have hfilter : ∀ (p : SigModelIDModel → Bool) {l : List SigModelIDModel} (b : Bool),
      (∀ m ∈ l, p m = b) → l.filter p = if b then l else [] := by
    intro p l b h
    cases b with
    | true => exact List.filter_eq_self.mpr h
    | false => exact List.filter_eq_nil_iff.mpr fun m hm => by rw [h m hm]; exact Bool.false_ne_true
  have hmemSig : ∀ m ∈ r.sig.map initWithSigModelId, isBluetoothSIGAssigned m = true := by
    intro m hm
    obtain ⟨v, -, rfl⟩ := List.mem_map.mp hm
    exact hsig v
  have hmemVendor : ∀ m ∈ r.vendor.map initWithVendorModelId,
      isBluetoothSIGAssigned m = false := by
    intro m hm
    obtain ⟨x, -, rfl⟩ := List.mem_map.mp hm
    exact hvendor x
  unfold sigModels vendorModels elementOf
  dsimp only [Option.getD_some]
  rw [List.filter_append, List.filter_append, hfilter _ true hmemSig, hfilter _ false hmemVendor,
    hfilter _ false fun m hm => by rw [hmemSig m hm]; rfl,
    hfilter _ true fun m hm => by rw [hmemVendor m hm]; rfl]
  exact ⟨List.append_nil _, List.nil_append _⟩

/-- **An element is read back** with the numbers it was written with. -/
theorem content_elementOf (h : Counted element) (index : Byte) :
    content (elementOf (recordOf element) index) = content element := by
  obtain ⟨hsig, hvendor⟩ := sigModels_elementOf (recordOf element) index
  have hlocation : getSigLocation (elementOf (recordOf element) index) =
      getSigLocation element := by
    refine (uint16From16String_format (getSigLocation element).isLt).trans ?_
    rw [BitVec.ofNat_toNat, BitVec.setWidth_eq]
  unfold content
  rw [hlocation, hsig, hvendor, h.sig, h.vendor]
  refine congrArg (getSigLocation element, ·) (Prod.ext ?_ ?_)
  · dsimp only
    rw [List.map_map, List.map_map]
    exact List.map_congr_left fun model _ => getIntModelIdentifier_sig _
  · dsimp only
    rw [List.map_map, List.map_map]
    refine List.map_congr_left fun model _ => ?_
    obtain ⟨hcompany, hmodel⟩ := vendorModelId (getIntCompanyIdentifier model)
      (getIntModelIdentifier model) rfl
    exact Prod.ext hcompany hmodel

/-! ### Features -/

/-- Every feature is enabled, or not supported. -/
def FeaturesKept (features : SigNodeFeatures) : Prop :=
  ∀ state ∈ [features.relayFeature, features.proxyFeature, features.friendFeature,
    features.lowPowerFeature], state = stateEnabled ∨ state = stateNotSupported

theorem initWithRawValue_rawValue (features : SigNodeFeatures) :
    initWithRawValue (rawValue features) = ⟨
      if features.relayFeature ≠ stateNotSupported then stateEnabled else stateNotSupported,
      if features.proxyFeature ≠ stateNotSupported then stateEnabled else stateNotSupported,
      if features.friendFeature ≠ stateNotSupported then stateEnabled else stateNotSupported,
      if features.lowPowerFeature ≠ stateNotSupported then stateEnabled
        else stateNotSupported⟩ := by
  unfold initWithRawValue rawValue
  split_ifs
  all_goals rfl

/-- A feature that is not enabled comes back enabled. -/
theorem initWithRawValue_iff (features : SigNodeFeatures) :
    initWithRawValue (rawValue features) = features ↔ FeaturesKept features := by
  have hstate : ∀ state : Byte,
      (if state ≠ stateNotSupported then stateEnabled else stateNotSupported) = state ↔
        state = stateEnabled ∨ state = stateNotSupported := by
    intro state
    by_cases h : state = stateNotSupported
    · rw [if_neg (not_not.mpr h), h]
      exact iff_of_true rfl (.inr rfl)
    · rw [if_pos h, or_iff_left h]
      exact eq_comm
  rw [initWithRawValue_rawValue, SigNodeFeatures.ext_iff]
  dsimp only
  rw [hstate, hstate, hstate, hstate]
  unfold FeaturesKept
  rw [List.forall_mem_cons, List.forall_mem_cons, List.forall_mem_cons, List.forall_mem_singleton]

/-! ### Round trip -/

theorem uint16At_part {before : List Byte} {v : BitVec 16}
    (h : before ++ uint16Bytes v <+: data) : uint16At data before.length = .ok v := by
  obtain ⟨rest, rfl⟩ := h
  have hlen : (uint16Bytes v).length = 2 := length_toLE 2 v.toNat
  have hin : before.length + 2 ≤ (before ++ uint16Bytes v ++ rest).length := by
    rw [List.length_append, List.length_append]
    omega
  refine uint16At_eq_ok.mpr ⟨hin, ?_⟩
  rw [read_mem hin, List.append_assoc, List.drop_left, List.take_left' hlen]
  exact (Format.fits_word v.isLt).symm

/-- What the octets of a page give. -/
theorem initWithParameters_parameters (p : SigPage0) (h : ∀ e ∈ p.elements, Counted e)
    (hint : p.parameters.length < 2 ^ 31) :
    initWithParameters p.parameters = .ok (some { p with
      features := initWithRawValue (rawValue p.features)
      elements := elementsOf 0 (p.elements.map recordOf) }) := by
  have hrecords : p.elements.flatMap getElementData = eleKind.putAll (p.elements.map recordOf) := by
    unfold Kind.putAll
    rw [List.flatMap_map]
    exact List.flatMap_congr fun e he => getElementData_eq (h e he)
  obtain ⟨page, company, product, version, crpl, features, elements⟩ := p
  generalize hdata : SigPage0.parameters _ = data at hint
  unfold SigPage0.parameters at hdata
  dsimp only at hdata hrecords ⊢
  have hdrop : data.drop 11 = eleKind.putAll (elements.map recordOf) := by
    rw [← hdata, hrecords]
    rfl
  have hge : 11 ≤ data.length := by
    rw [← hdata]
    simp only [List.length_append, List.length_singleton, uint16Bytes, Format.word, length_toLE]
    omega
  obtain ⟨hat, hfinish⟩ := (at_end_iff hge).mpr hdrop
  have helements : readElements data 11 0 = .ok _ :=
    (readElements_eq_ok (by decide) hge).mpr ⟨hint, _, hat, hfinish, rfl⟩
  have hpage : data.headD 0 = page := by
    rw [← hdata]
    rfl
  -- each field is the end of what comes so far
  have h9 : [page] ++ uint16Bytes company ++ uint16Bytes product ++ uint16Bytes version ++
      uint16Bytes crpl ++ uint16Bytes (rawValue features) <+: data := ⟨_, hdata⟩
  have h7 := (List.prefix_append _ _).trans h9
  have h5 := (List.prefix_append _ _).trans h7
  have h3 := (List.prefix_append _ _).trans h5
  have h1 := (List.prefix_append _ _).trans h3
  have hcompany : uint16At data 1 = .ok company := uint16At_part h1
  have hproduct : uint16At data 3 = .ok product := uint16At_part h3
  have hversion : uint16At data 5 = .ok version := uint16At_part h5
  have hcrpl : uint16At data 7 = .ok crpl := uint16At_part h7
  have hfeatures : uint16At data 9 = .ok (rawValue features) := uint16At_part h9
  unfold initWithParameters
  rw [if_neg (by omega), hpage]
  exact bind_eq_ok.mpr ⟨_, hcompany, bind_eq_ok.mpr ⟨_, hproduct, bind_eq_ok.mpr ⟨_, hversion,
    bind_eq_ok.mpr ⟨_, hcrpl, bind_eq_ok.mpr ⟨_, hfeatures, bind_eq_ok.mpr ⟨_, helements, rfl⟩⟩⟩⟩⟩⟩

/-- Elements that are read back in order have the contents of those that were written. -/
theorem content_elementsOf {elements : List SigElementModel} (h : ∀ e ∈ elements, Counted e)
    (count : ℕ) :
    (elementsOf count (elements.map recordOf)).map content = elements.map content := by
  induction elements generalizing count with
  | nil => rfl
  | cons e elements ih =>
    obtain ⟨he, helements⟩ := List.forall_mem_cons.mp h
    rw [List.map_cons, elementsOf_cons, List.map_cons, List.map_cons, ih helements,
      content_elementOf he]

/-- **When a page comes back.** -/
theorem roundTrips_page_iff (p : SigPage0) (h : ∀ e ∈ p.elements, Counted e) :
    RoundTrips p ↔ p.parameters.length < 2 ^ 31 ∧ FeaturesKept p.features := by
  constructor
  · rintro ⟨q, hq, hsame⟩
    have hint : p.parameters.length < 2 ^ 31 := by
      rcases (safe_iff _).mp ⟨_, hq⟩ with hshort | hlong
      · omega
      · exact hlong.2.1
    rw [initWithParameters_parameters p h hint] at hq
    obtain rfl := Option.some.inj (Except.ok.inj hq)
    exact ⟨hint, (initWithRawValue_iff _).mp hsame.features⟩
  · rintro ⟨hint, hkept⟩
    exact ⟨_, initWithParameters_parameters p h hint, rfl, rfl, rfl, rfl, rfl,
      (initWithRawValue_iff _).mpr hkept, content_elementsOf h 0⟩

end PirMesh.CompositionPage
