import Mathlib.Tactic.IntervalCases
import PirMesh.Phone.MessageShapes

/-! # Phone — The descriptors of a sensor (`SigModel.m`, `SigGenericMessage.m`)

A descriptor of eight octets is given back as nine, since one of its octets is read twice, or
as two where it has no positive tolerance.  A status of such descriptors is never given back as
it was: what one side is ahead of the other would have to be one octet again and again, and at
the end nothing is left to match it. -/

namespace PirMesh.GenericMessage

open Nor (Byte toLE ofLE)

/-- The octets of a descriptor. -/
structure Descriptor where
  b0 : Byte
  b1 : Byte
  b2 : Byte
  b3 : Byte
  b4 : Byte
  b5 : Byte
  b6 : Byte
  b7 : Byte

namespace Descriptor

def bytes (d : Descriptor) : List Byte := [d.b0, d.b1, d.b2, d.b3, d.b4, d.b5, d.b6, d.b7]

def HasTolerance (d : Descriptor) : Prop := ¬ (d.b2 = 0 ∧ d.b3 = 0)

instance (d : Descriptor) : Decidable d.HasTolerance := inferInstanceAs (Decidable (¬ _))

/-- What a descriptor is given back as. -/
def given (d : Descriptor) : List Byte :=
  if d.HasTolerance then [d.b0, d.b1, d.b2, d.b3, d.b4, d.b5, d.b5, d.b6, d.b7] else [d.b0, d.b1]

theorem given_of_tolerance {d : Descriptor} (h : d.HasTolerance) :
    d.given = [d.b0, d.b1, d.b2, d.b3, d.b4, d.b5, d.b5, d.b6, d.b7] := if_pos h

theorem given_of_not {d : Descriptor} (h : ¬ d.HasTolerance) : d.given = [d.b0, d.b1] := if_neg h

/-- One octet eight times. -/
def replicate (x : Byte) : Descriptor := ⟨x, x, x, x, x, x, x, x⟩

theorem eq_replicate {d : Descriptor} {x : Byte} (h : ∀ i < 8, d.bytes[i]? = some x) :
    d = replicate x := by
  have h0 : d.b0 = x := Option.some.inj (h 0 (by decide))
  have h1 : d.b1 = x := Option.some.inj (h 1 (by decide))
  have h2 : d.b2 = x := Option.some.inj (h 2 (by decide))
  have h3 : d.b3 = x := Option.some.inj (h 3 (by decide))
  have h4 : d.b4 = x := Option.some.inj (h 4 (by decide))
  have h5 : d.b5 = x := Option.some.inj (h 5 (by decide))
  have h6 : d.b6 = x := Option.some.inj (h 6 (by decide))
  have h7 : d.b7 = x := Option.some.inj (h 7 (by decide))
  obtain ⟨b0, b1, b2, b3, b4, b5, b6, b7⟩ := d
  cases h0; cases h1; cases h2; cases h3; cases h4; cases h5; cases h6; cases h7
  rfl

theorem given_replicate {x : Byte} (hx : x ≠ 0) : (replicate x).given = List.replicate 9 x :=
  given_of_tolerance fun h => hx h.1

end Descriptor

def received (ds : List Descriptor) : List Byte := ds.flatMap Descriptor.bytes

def given (ds : List Descriptor) : List Byte := ds.flatMap Descriptor.given

theorem received_cons (d : Descriptor) (ds : List Descriptor) :
    received (d :: ds) = d.bytes ++ received ds := rfl

theorem given_cons (d : Descriptor) (ds : List Descriptor) :
    given (d :: ds) = d.given ++ given ds := rfl

/-! ### What one side is ahead -/

/-- Where a list follows itself at a distance, what stands in front spreads over it. -/
theorem spread {α : Type} {x : α} {n : ℕ} {t l r : List α} (hn : 0 < n)
    (h : List.replicate n x ++ t = l ++ r)
    (ht : ∀ i, i + n < l.length → ∃ j ≤ i, t[i]? = l[j]?) : ∀ i < l.length, l[i]? = some x := by
  intro i
  induction i using Nat.strong_induction_on with
  | _ i ih =>
    intro hi
    have hat : (List.replicate n x ++ t)[i]? = l[i]? := by
      rw [h, List.getElem?_append_left hi]
    rcases Nat.lt_or_ge i n with hlt | hge
    · rw [← hat, List.getElem?_append_left (by rwa [List.length_replicate]),
        List.getElem?_replicate, if_pos hlt]
    · obtain ⟨j, hj, htj⟩ := ht (i - n) (by omega)
      rw [← hat, List.getElem?_append_right (by rwa [List.length_replicate]),
        List.length_replicate, htj]
      exact ih j (by omega) (by omega)

/-- A descriptor that what is given back is ahead of, by an octet again and again. -/
theorem eq_replicate_of_ahead {d : Descriptor} {x : Byte} {n : ℕ} {e r : List Byte} (hx : x ≠ 0)
    (hn : 0 < n) (h : List.replicate n x ++ (d.given ++ e) = d.bytes ++ r) :
    d = .replicate x := by
  have hfront : ∀ i < 3, [d.b0, d.b1, d.b2][i]? = some x := by
    have hthree : List.replicate n x ++ (d.given ++ e) =
        [d.b0, d.b1, d.b2] ++ ([d.b3, d.b4, d.b5, d.b6, d.b7] ++ r) := h
    refine spread hn hthree fun i hi => ⟨i, le_rfl, ?_⟩
    have hi2 : i < 2 := by
      change i + n < 3 at hi
      omega
    unfold Descriptor.given
    interval_cases i <;> split_ifs <;> rfl
  have hb2 : d.b2 = x := Option.some.inj (hfront 2 (by decide))
  have htol : d.HasTolerance := fun hzero => hx (hb2.symm.trans hzero.1)
  rw [Descriptor.given_of_tolerance htol] at h
  refine Descriptor.eq_replicate (spread hn h fun i hi => ?_)
  have hi7 : i < 7 := by
    change i + n < 8 at hi
    omega
  -- the last octet in reach is the one that is given twice
  interval_cases i
  · exact ⟨0, le_rfl, rfl⟩
  · exact ⟨1, le_rfl, rfl⟩
  · exact ⟨2, le_rfl, rfl⟩
  · exact ⟨3, le_rfl, rfl⟩
  · exact ⟨4, le_rfl, rfl⟩
  · exact ⟨5, le_rfl, rfl⟩
  · exact ⟨5, by decide, rfl⟩

/-- The lead grows with every descriptor. -/
theorem ahead_ne {x : Byte} (hx : x ≠ 0) (ds : List Descriptor) {n : ℕ} (hn : 0 < n) :
    List.replicate n x ++ given ds ≠ received ds := by
  induction ds generalizing n with
  | nil =>
    intro h
    have hlen := congrArg List.length (List.append_eq_nil_iff.mp h).1
    rw [List.length_replicate] at hlen
    exact hn.ne' hlen
  | cons d ds ih =>
    intro h
    obtain rfl := eq_replicate_of_ahead hx hn h
    rw [given_cons, received_cons, Descriptor.given_replicate hx, ← List.append_assoc,
      List.replicate_append_replicate] at h
    have hcancel : List.replicate 8 x ++ (List.replicate (n + 1) x ++ given ds) =
        List.replicate 8 x ++ received ds := by
      rw [← List.append_assoc, List.replicate_append_replicate, Nat.add_comm 8]
      exact h
    exact ih (Nat.succ_pos n) (List.append_cancel_left hcancel)

/-! ### What one side lacks -/

theorem split_at {α : Type} {a b c d : List α} (hlen : a.length ≤ c.length)
    (h : a ++ b = c ++ d) : ∃ w, c = a ++ w ∧ b = w ++ d := by
  obtain ⟨w, rfl⟩ := List.prefix_of_prefix_length_le ⟨b, rfl⟩ ⟨d, h.symm⟩ hlen
  rw [List.append_assoc] at h
  exact ⟨w, rfl, List.append_cancel_left h⟩

/-- A descriptor that what is given back lacks octets of, the rest of which lacks one octet again
and again. -/
theorem eq_replicate_of_behind {d : Descriptor} {y : Byte} {v w : List Byte}
    (htol : d.HasTolerance) (hw : w ≠ []) (hall : ∀ b ∈ w, b = y)
    (h : v ++ d.bytes = d.given ++ w) : d = .replicate y := by
  have hpos : 0 < w.length := List.length_pos_iff.mpr hw
  have hback : List.replicate w.length y ++ d.given.reverse = d.bytes.reverse ++ v.reverse := by
    rw [← List.reverse_append, h, List.reverse_append, List.eq_replicate_of_mem hall,
      List.reverse_replicate, List.length_replicate]
  rw [Descriptor.given_of_tolerance htol] at hback
  have hspread := spread hpos hback fun i hi => ?_
  · refine Descriptor.eq_replicate fun i hi => ?_
    have hat := hspread (7 - i) (show 7 - i < 8 by omega)
    interval_cases i <;> exact hat
  · have hi7 : i < 7 := by
      change i + w.length < 8 at hi
      omega
    interval_cases i
    · exact ⟨0, le_rfl, rfl⟩
    · exact ⟨1, le_rfl, rfl⟩
    · exact ⟨2, le_rfl, rfl⟩
    · exact ⟨2, by decide, rfl⟩
    · exact ⟨3, by decide, rfl⟩
    · exact ⟨4, by decide, rfl⟩
    · exact ⟨5, by decide, rfl⟩

/-- How descriptors and what they are given back as can and cannot agree. -/
structure Apart (ds : List Descriptor) : Prop where
  same : given ds = received ds → ds = []
  behind : ∀ v, v ≠ [] → given ds = v ++ received ds → ∃ y ≠ 0, ∀ b ∈ v, b = y
  ahead : ∀ x, x :: given ds ≠ received ds

/-- A zero is never lacking. -/
theorem Apart.zero {ds : List Descriptor} (h : Apart ds) {v : List Byte} (hv : (0 : Byte) ∈ v) :
    given ds ≠ v ++ received ds := by
  intro hgiven
  obtain ⟨y, hy, hall⟩ := h.behind v (List.ne_nil_of_mem hv) hgiven
  exact hy (hall 0 hv).symm

theorem behind_tolerance {d : Descriptor} {ds : List Descriptor} (ih : Apart ds)
    (htol : d.HasTolerance) {v : List Byte} (hv : v ≠ [])
    (h : d.given ++ given ds = v ++ (d.bytes ++ received ds)) : ∃ y ≠ 0, ∀ b ∈ v, b = y := by
  have hpos : 0 < v.length := List.length_pos_iff.mpr hv
  have hlen : d.given.length ≤ (v ++ d.bytes).length := by
    rw [Descriptor.given_of_tolerance htol, List.length_append]
    exact Nat.succ_le_of_lt (Nat.lt_add_of_pos_left hpos)
  rw [← List.append_assoc] at h
  obtain ⟨w, hw, hrest⟩ := split_at hlen h
  by_cases hnil : w = []
  · -- one octet was lacking, and it is the first of the descriptor
    rw [hnil, List.append_nil, Descriptor.given_of_tolerance htol] at hw
    match v, hv with
    | [a], _ =>
      simp only [Descriptor.bytes, List.cons_append, List.nil_append, List.cons.injEq] at hw
      obtain ⟨h0, h1, h2, h3, -⟩ := hw
      refine ⟨a, fun ha => htol ?_, fun b hb => List.mem_singleton.mp hb⟩
      have hb2 : d.b2 = 0 := h2.symm.trans (h1.symm.trans (h0.symm.trans ha))
      exact ⟨hb2, h3.symm.trans hb2⟩
    | a :: b :: v, _ =>
      have hcount := congrArg List.length hw
      simp [Descriptor.bytes] at hcount
  · obtain ⟨y, hy, hall⟩ := ih.behind w hnil hrest
    have hd := eq_replicate_of_behind htol hnil hall hw
    refine ⟨y, hy, fun b hb => ?_⟩
    have hmem : b ∈ d.given ++ w := hw ▸ List.mem_append_left _ hb
    rw [hd, Descriptor.given_replicate hy] at hmem
    rcases List.mem_append.mp hmem with hin | hin
    · exact List.eq_of_mem_replicate hin
    · exact hall b hin

theorem Apart.cons_tolerance {d : Descriptor} {ds : List Descriptor} (ih : Apart ds)
    (htol : d.HasTolerance) : Apart (d :: ds) where
  same h := by
    rw [given_cons, received_cons, Descriptor.given_of_tolerance htol] at h
    simp only [Descriptor.bytes, List.cons_append, List.nil_append, List.cons.injEq, true_and] at h
    exact absurd h.2.2 (ih.ahead _)
  behind _ hv h := behind_tolerance ih htol hv h
  ahead x h := by
    by_cases hx : x = 0
    · rw [given_cons, received_cons, Descriptor.given_of_tolerance htol] at h
      simp only [Descriptor.bytes, List.cons_append, List.nil_append, List.cons.injEq] at h
      obtain ⟨h0, h1, h2, h3, -⟩ := h
      have hb2 : d.b2 = 0 := h2.symm.trans (h1.symm.trans (h0.symm.trans hx))
      exact htol ⟨hb2, h3.symm.trans hb2⟩
    · exact ahead_ne hx (d :: ds) Nat.one_pos h

theorem Apart.cons_not {d : Descriptor} {ds : List Descriptor} (ih : Apart ds)
    (htol : ¬ d.HasTolerance) : Apart (d :: ds) where
  same h := by
    rw [given_cons, received_cons, Descriptor.given_of_not htol] at h
    simp only [Descriptor.bytes, List.cons_append, List.nil_append, List.cons.injEq, true_and] at h
    refine absurd h (ih.zero (v := [d.b2, d.b3, d.b4, d.b5, d.b6, d.b7]) ?_)
    rw [(not_not.mp htol).1]
    exact List.mem_cons_self
  behind v hv h := by
    have hmem : (0 : Byte) ∈ d.bytes := by
      show (0 : Byte) ∈ [d.b0, d.b1, d.b2, d.b3, d.b4, d.b5, d.b6, d.b7]
      rw [(not_not.mp htol).1]
      exact List.mem_cons_of_mem _ (List.mem_cons_of_mem _ List.mem_cons_self)
    rw [given_cons, received_cons, Descriptor.given_of_not htol] at h
    match v, hv with
    | [a], _ =>
      simp only [Descriptor.bytes, List.cons_append, List.nil_append, List.cons.injEq] at h
      refine absurd h.2.2 (ih.zero (v := [d.b1, d.b2, d.b3, d.b4, d.b5, d.b6, d.b7]) ?_)
      rw [(not_not.mp htol).1]
      exact List.mem_cons_of_mem _ List.mem_cons_self
    | a :: b :: v, _ =>
      simp only [List.cons_append, List.nil_append, List.cons.injEq] at h
      refine absurd ?_ (ih.zero (v := v ++ d.bytes) (List.mem_append_right _ hmem))
      rw [List.append_assoc]
      exact h.2.2
  ahead x h := by
    by_cases hx : x = 0
    · rw [given_cons, received_cons, Descriptor.given_of_not htol] at h
      simp only [Descriptor.bytes, List.cons_append, List.nil_append, List.cons.injEq] at h
      refine absurd h.2.2.2 (ih.zero (v := [d.b3, d.b4, d.b5, d.b6, d.b7]) ?_)
      rw [(not_not.mp htol).2]
      exact List.mem_cons_self
    · exact ahead_ne hx (d :: ds) Nat.one_pos h

theorem apart (ds : List Descriptor) : Apart ds := by
  induction ds with
  | nil =>
    refine ⟨fun _ => rfl, fun v hv h => absurd ?_ hv, fun x h => List.cons_ne_nil _ _ h⟩
    exact (List.append_eq_nil_iff.mp h.symm).1
  | cons d ds ih =>
    by_cases htol : d.HasTolerance
    · exact ih.cons_tolerance htol
    · exact ih.cons_not htol

/-! ### The status -/

theorem get_pair_eq_zero (x y : Byte) : u16.get [x, y] = 0 ↔ x = 0 ∧ y = 0 := by
  constructor
  · intro h
    have hput := congrArg u16.put h
    rw [put_get_u16 rfl] at hput
    exact ⟨(List.cons.inj hput).1, (List.cons.inj (List.cons.inj hput).2).1⟩
  · intro h
    rw [h.1, h.2]
    decide

theorem getDescriptorParameters_bytes (d : Descriptor) :
    (SigSensorDescriptorModel.initWithDescriptorParameters d.bytes).toList.flatMap
      SigSensorDescriptorModel.getDescriptorParameters = d.given := by
  show u16.put (u16.get [d.b0, d.b1]) ++ (if u16.get [d.b2, d.b3] ≠ 0 then
    u16.put (u16.get [d.b2, d.b3]) ++ u16.put (u16.get [d.b4, d.b5]) ++ [d.b5, d.b6, d.b7]
      else []) ++ [] = d.given
  rw [put_get_u16 rfl, put_get_u16 rfl, put_get_u16 rfl, List.append_nil]
  by_cases htol : d.HasTolerance
  · rw [if_pos fun h => htol ((get_pair_eq_zero _ _).mp h), Descriptor.given_of_tolerance htol]
    rfl
  · rw [if_neg (not_not_intro ((get_pair_eq_zero _ _).mpr (not_not.mp htol))),
      Descriptor.given_of_not htol]
    rfl

theorem descriptorModels_append {c : List Byte} (hc : c.length = 8) (l : List Byte) :
    descriptorModels (c ++ l) =
      (SigSensorDescriptorModel.initWithDescriptorParameters c).toList ++ descriptorModels l := by
  have hcount : (c ++ l).length / 8 = l.length / 8 + 1 := by
    rw [List.length_append, hc, Nat.add_comm, Nat.add_div_right _ (by decide)]
  have hfirst : ((c ++ l).drop (0 * 8)).take 8 = c := by
    rw [Nat.zero_mul, List.drop_zero, List.take_left' hc]
  have hnext : ∀ i, ((c ++ l).drop ((i + 1) * 8)).take 8 = (l.drop (i * 8)).take 8 := by
    intro i
    rw [Nat.succ_mul, Nat.add_comm, ← List.drop_drop, List.drop_left' hc]
  unfold descriptorModels
  rw [hcount, List.range_succ_eq_map, List.filterMap_cons, hfirst, List.filterMap_map]
  simp only [Function.comp_def, hnext]
  cases SigSensorDescriptorModel.initWithDescriptorParameters c <;> rfl

theorem flatMap_descriptorModels (ds : List Descriptor) :
    (descriptorModels (received ds)).flatMap SigSensorDescriptorModel.getDescriptorParameters =
      given ds := by
  induction ds with
  | nil => rfl
  | cons d ds ih =>
    rw [received_cons, descriptorModels_append rfl, List.flatMap_append,
      getDescriptorParameters_bytes, ih]
    rfl

theorem exists_received {n : ℕ} {l : List Byte} (h : l.length = 8 * n) :
    ∃ ds : List Descriptor, l = received ds := by
  induction n generalizing l with
  | zero => exact ⟨[], List.length_eq_zero_iff.mp h⟩
  | succ n ih =>
    match l, h with
    | b0 :: b1 :: b2 :: b3 :: b4 :: b5 :: b6 :: b7 :: l, h =>
      have hrest : l.length = 8 * n := by
        simp only [List.length_cons] at h
        omega
      obtain ⟨ds, rfl⟩ := ih hrest
      exact ⟨⟨b0, b1, b2, b3, b4, b5, b6, b7⟩ :: ds, rfl⟩

theorem flatMap_descriptorModels_iff {l : List Byte} (h : l.length % 8 = 0) :
    (descriptorModels l).flatMap SigSensorDescriptorModel.getDescriptorParameters = l ↔
      l = [] := by
  obtain ⟨ds, rfl⟩ := exists_received (Nat.mul_div_cancel' (Nat.dvd_of_mod_eq_zero h)).symm
  rw [flatMap_descriptorModels]
  constructor
  · intro hsame
    rw [(apart ds).same hsame]
    rfl
  · intro hnil
    cases ds with
    | nil => rfl
    | cons d ds => exact absurd hnil (List.cons_ne_nil _ _)

/-- A descriptor alone is two octets, which come back as they were. -/
theorem flatMap_descriptor {l : List Byte} (h : l.length = 2) :
    (SigSensorDescriptorModel.initWithDescriptorParameters l).toList.flatMap
      SigSensorDescriptorModel.getDescriptorParameters = l := by
  match l, h with
  | [x, y], _ => exact put_get_u16 (l := [x, y]) rfl

variable {Valid : Option (List Byte) → Prop}

theorem sensorDescriptorStatus_settles {InWidths Values : Empty → Prop} :
    Settles sigSensorDescriptorStatus .sensorDescriptorStatus Valid
      (fun _ p => (octets p).length < 8) InWidths Values where
  octets_iff := by
    intro behind p models _ h
    obtain ⟨data, rfl, hget⟩ := Option.bind_eq_some_iff.mp h
    split_ifs at hget with h2 h8
    · rw [← Option.some.inj hget]
      exact iff_of_true ⟨rfl, flatMap_descriptor h2⟩ (lt_of_eq_of_lt h2 (by decide))
    · rw [← Option.some.inj hget]
      refine (and_iff_right rfl).trans ((flatMap_descriptorModels_iff h8).trans ?_)
      rw [← List.length_eq_zero_iff]
      show data.length = 0 ↔ data.length < 8
      omega
  fields_iff _ _ a := a.elim

end PirMesh.GenericMessage
