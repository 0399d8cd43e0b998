import PirMesh.Config.ShareSub

/-! # Config — What sharing reaches

`share_model_sub` reaches every shared model of the light but one
(`mem_calls_iff`): with two or more elements the loop over the Generic Level
servers stops before the last element, whose server is never set.  A message
therefore leaves the lists of a light alike exactly when the light has one
element, or when the server left out is the one addressed (`cfgModelSub_shares_iff`).
A message to a vendor model is not shared at all. -/

namespace PirMesh

open ModelId Run

variable {b : LightBuild} {L Req : Type} {f : L → L} {s t : Subs L} {k lightIdx : Nat}
    {md : ModelId}

/-! ### The models of a light -/

namespace LightBuild

/-- The address of element `k` of a light. -/
def eleAdr (b : LightBuild) (lightIdx k : Nat) : Nat :=
  b.eleAdrPrimary + lightIdx * b.eleCntEveryLight + k

/-- The models of the two tables share their lists. -/
def Shared (b : LightBuild) (md : ModelId) : Prop :=
  md ∈ b.subShareModelSig ∨ md ∈ b.subShareModelVendor

/-- Element `k` of the light has the shared model. -/
structure SharedAt (b : LightBuild) (lightIdx k : Nat) (md : ModelId) : Prop where
  light : lightIdx < b.lightCnt
  ele : k < b.eleCntEveryLight
  shared : b.Shared md
  has : b.hasModel (b.eleAdr lightIdx k, md) = true

theorem eleAdr_div (hk : k < b.eleCntEveryLight) :
    (b.eleAdr lightIdx k - b.eleAdrPrimary) / b.eleCntEveryLight = lightIdx := by
  rw [eleAdr, Nat.add_assoc, Nat.add_sub_cancel_left, Nat.mul_comm, Nat.mul_add_div b.eleCnt_pos,
    Nat.div_eq_of_lt hk, Nat.add_zero]

theorem eleAdr_mod (hk : k < b.eleCntEveryLight) :
    (b.eleAdr lightIdx k - b.eleAdrPrimary) % b.eleCntEveryLight = k := by
  rw [eleAdr, Nat.add_assoc, Nat.add_sub_cancel_left, Nat.mul_comm, Nat.mul_add_mod,
    Nat.mod_eq_of_lt hk]

theorem isOwnEle_eleAdr (hl : lightIdx < b.lightCnt) (hk : k < b.eleCntEveryLight) :
    b.isOwnEle (b.eleAdr lightIdx k) = true := by
  have hlast : (lightIdx + 1) * b.eleCntEveryLight ≤ b.lightCnt * b.eleCntEveryLight :=
    Nat.mul_le_mul_right _ hl
  rw [Nat.succ_mul] at hlast
  rw [isOwnEle, decide_eq_true_iff, eleAdr]
  omega

/-- Elements of a light are told apart by their number, and from those of other lights. -/
theorem eleAdr_inj {j lightIdx' : Nat} (hj : j < b.eleCntEveryLight) (hk : k < b.eleCntEveryLight)
    (h : b.eleAdr lightIdx' j = b.eleAdr lightIdx k) : lightIdx' = lightIdx ∧ j = k := by
  constructor
  · have hdiv : (b.eleAdr lightIdx' j - b.eleAdrPrimary) / b.eleCntEveryLight = lightIdx' :=
      eleAdr_div hj
    rw [← hdiv, h, eleAdr_div hk]
  · have hmod : (b.eleAdr lightIdx' j - b.eleAdrPrimary) % b.eleCntEveryLight = j := eleAdr_mod hj
    rw [← hmod, h, eleAdr_mod hk]

theorem hasModel_eleAdr (hl : lightIdx < b.lightCnt) (hk : k < b.eleCntEveryLight) :
    b.hasModel (b.eleAdr lightIdx k, md) =
      if k = 0 then b.first lightIdx md else decide (md ∈ b.otherEleModels k) := by
  simp only [hasModel, isOwnEle_eleAdr hl hk, eleAdr_div hk, eleAdr_mod hk, Bool.true_and]

/-- The models past the first element, by the light type. -/
theorem mem_otherEleModels : md ∈ b.otherEleModels k ↔ md = gLevelS ∨
    (k = 1 ∧ b.lightTypeCtEn ∧ md = lightCtlTempS) ∨
    (b.lightTypeHslEn ∧ ((k = (if b.lightType = .hsl then 1 else 2) ∧ md = lightHslHueS) ∨
      (k = (if b.lightType = .hsl then 1 else 2) + 1 ∧ md = lightHslSatS))) := by
  unfold otherEleModels lightTypeCtEn lightTypeHslEn
  cases b.lightType <;> split <;> simp <;> grind

/-! ### The calls -/

/-- What the call on element `k` is about. -/
def Called (b : LightBuild) (k : Nat) (md : ModelId) : Prop :=
  (k = 0 ∧ b.Shared md) ∨ (2 ≤ b.eleCntEveryLight ∧
    ((k + 1 < b.eleCntEveryLight ∧ md = gLevelS) ∨
    (k = 1 ∧ b.lightTypeCtEn ∧ md = lightCtlTempS) ∨
    (b.lightTypeHslEn ∧ ((k = (if b.lightType = .hsl then 1 else 2) ∧ md = lightHslHueS) ∨
      (k = (if b.lightType = .hsl then 1 else 2) + 1 ∧ md = lightHslSatS)))))

theorem mem_shareModelSubCalls {adr : Nat} : (adr, md) ∈ b.shareModelSubCalls lightIdx ↔
    ∃ k, adr = b.eleAdr lightIdx k ∧ b.Called k md := by
  unfold shareModelSubCalls
  simp only [List.mem_append, List.mem_map, Prod.mk.injEq]
  constructor
  · rintro ((⟨md, h, rfl, rfl⟩ | ⟨md, h, rfl, rfl⟩) | h)
    · exact ⟨0, rfl, .inl ⟨rfl, .inl h⟩⟩
    · exact ⟨0, rfl, .inl ⟨rfl, .inr h⟩⟩
    split at h
    · rename_i h2
      simp only [List.mem_append, List.mem_map, Prod.mk.injEq, List.mem_range] at h
      rcases h with (⟨i, hi, rfl, rfl⟩ | h) | h
      · exact ⟨i, rfl, .inr ⟨h2, .inl ⟨by omega, rfl⟩⟩⟩
      · split at h
        · rename_i hct
          obtain ⟨rfl, rfl⟩ := Prod.mk.inj (List.mem_singleton.mp h)
          exact ⟨1, rfl, .inr ⟨h2, .inr (.inl ⟨rfl, hct, rfl⟩)⟩⟩
        · cases h
      · split at h
        · rename_i hhsl
          rcases List.mem_cons.mp h with h | h
          · obtain ⟨rfl, rfl⟩ := Prod.mk.inj h
            exact ⟨_, rfl, .inr ⟨h2, .inr (.inr ⟨hhsl, .inl ⟨rfl, rfl⟩⟩)⟩⟩
          · obtain ⟨rfl, rfl⟩ := Prod.mk.inj (List.mem_singleton.mp h)
            exact ⟨_, rfl, .inr ⟨h2, .inr (.inr ⟨hhsl, .inr ⟨rfl, rfl⟩⟩)⟩⟩
        · cases h
    · cases h
  · rintro ⟨k, rfl, ⟨rfl, h | h⟩ | ⟨h2, h⟩⟩
    · exact .inl (.inl ⟨md, h, rfl, rfl⟩)
    · exact .inl (.inr ⟨md, h, rfl, rfl⟩)
    · refine .inr ?_
      rw [if_pos h2]
      simp only [List.mem_append, List.mem_map, Prod.mk.injEq, List.mem_range]
      rcases h with ⟨hk, rfl⟩ | ⟨rfl, hct, rfl⟩ | ⟨hhsl, h⟩
      · exact .inl (.inl ⟨k, by omega, rfl, rfl⟩)
      · rw [if_pos hct]
        exact .inl (.inr (List.mem_singleton.mpr rfl))
      · rw [if_pos hhsl]
        rcases h with ⟨rfl, rfl⟩ | ⟨rfl, rfl⟩
        · exact .inr (List.mem_cons_self ..)
        · exact .inr (List.mem_cons_of_mem _ (List.mem_singleton.mpr rfl))

/-- No call leaves the light. -/
theorem Called.lt (h : b.Called k md) : k < b.eleCntEveryLight := by
  have hpos := b.eleCnt_pos
  have htype := b.eleCnt_type
  unfold Called lightTypeCtEn lightTypeHslEn at h
  rcases h with ⟨rfl, -⟩ | ⟨h2, h⟩
  · exact hpos
  · have := htype h2
    revert h this
    cases b.lightType <;> simp [LightType.eleCnt] <;> omega

/-- The server the loop over the Generic Level servers does not come to. -/
def LeftOut (b : LightBuild) (k : Nat) (md : ModelId) : Prop :=
  2 ≤ b.eleCntEveryLight ∧ k + 1 = b.eleCntEveryLight ∧ md = gLevelS

/-- Every shared model of the light is called, but the one left out. -/
theorem SharedAt.called_iff (h : b.SharedAt lightIdx k md) : b.Called k md ↔ ¬ b.LeftOut k md := by
  constructor
  · rintro (⟨rfl, -⟩ | ⟨-, ⟨hlt, -⟩ | ⟨-, -, rfl⟩ | ⟨-, ⟨-, rfl⟩ | ⟨-, rfl⟩⟩⟩) ⟨h2, hlast, hmd⟩
    · omega
    · omega
    · cases hmd
    · cases hmd
    · cases hmd
  · intro hreach
    by_cases h0 : k = 0
    · exact .inl ⟨h0, h.shared⟩
    have hlt := h.ele
    refine .inr ⟨by omega, ?_⟩
    have hmem := h.has
    rw [hasModel_eleAdr h.light h.ele, if_neg h0, decide_eq_true_iff, mem_otherEleModels] at hmem
    refine hmem.imp_left fun hlevel => ⟨?_, hlevel⟩
    have hne : k + 1 ≠ b.eleCntEveryLight := fun hlast => hreach ⟨by omega, hlast, hlevel⟩
    omega

theorem SharedAt.mem_calls_iff (h : b.SharedAt lightIdx k md) :
    (b.eleAdr lightIdx k, md) ∈ b.shareModelSubCalls lightIdx ↔ ¬ b.LeftOut k md := by
  rw [mem_shareModelSubCalls, ← h.called_iff]
  constructor
  · rintro ⟨j, hj, hcall⟩
    rw [(eleAdr_inj h.ele hcall.lt hj).2]
    exact hcall
  · exact fun hcall => ⟨k, rfl, hcall⟩

theorem exists_sig (h : md ∈ b.subShareModelSig) : ∃ id, md = .sig id := by
  cases md with
  | sig id => exact ⟨id, rfl⟩
  | vendor id =>
    revert h
    simp [subShareModelSig, gOnoffS, gLevelS, sceneS, lightnessS, lightnessSetupS, lightCtlS,
      lightCtlSetupS, lightCtlTempS, lightHslS, lightHslSetupS, lightHslHueS, lightHslSatS]

theorem exists_vendor (h : md ∈ b.subShareModelVendor) : ∃ id, md = .vendor id := by
  cases md with
  | vendor id => exact ⟨id, rfl⟩
  | sig id =>
    revert h
    simp [subShareModelVendor, lightVendorS, lightVendorS2]

theorem exists_eleAdr {adr : Nat} (h : b.hasModel (adr, md) = true) :
    ∃ lightIdx < b.lightCnt, ∃ k < b.eleCntEveryLight, adr = b.eleAdr lightIdx k := by
  have hown : b.isOwnEle adr = true := (Bool.and_eq_true_iff.mp h).1
  rw [isOwnEle, decide_eq_true_iff] at hown
  refine ⟨(adr - b.eleAdrPrimary) / b.eleCntEveryLight, ?_,
    (adr - b.eleAdrPrimary) % b.eleCntEveryLight,
    Nat.mod_lt _ b.eleCnt_pos, ?_⟩
  · rw [Nat.div_lt_iff_lt_mul b.eleCnt_pos]
    omega
  · rw [eleAdr, Nat.add_assoc, Nat.mul_comm, Nat.div_add_mod, Nat.add_sub_cancel' hown.1]

end LightBuild

/-! ### One message -/

theorem isNeedShareModelSub_iff : isNeedShareModelSub b md = true ↔ md ∈ b.subShareModelSig := by
  cases md with
  | sig id => exact decide_eq_true_iff
  | vendor id =>
    refine iff_of_false Bool.false_ne_true fun h => ?_
    obtain ⟨_, hid⟩ := LightBuild.exists_sig h
    cases hid

namespace LightBuild

/-- Where the operation of a message is applied, in this order. -/
def touched (b : LightBuild) (lightIdx k : Nat) (md : ModelId) : List (Nat × ModelId) :=
  (b.eleAdr lightIdx k, md) :: if md ∈ b.subShareModelSig then b.shareModelSubCalls lightIdx else []

theorem cfgModelSub_eq (hl : lightIdx < b.lightCnt) (hk : k < b.eleCntEveryLight)
    (h : b.hasModel (b.eleAdr lightIdx k, md) = true) :
    cfgModelSub b f (b.eleAdr lightIdx k) md s =
      (b.touched lightIdx k md).foldl (meshSubSearchAndSet b f) s := by
  rw [cfgModelSub, if_pos h, touched, List.foldl_cons, shareModelSubByRxCmd]
  by_cases hsig : md ∈ b.subShareModelSig
  · rw [if_pos (isNeedShareModelSub_iff.mpr hsig), if_pos (isOwnEle_eleAdr hl hk), eleAdr_div hk,
      if_pos hsig, shareModelSub]
  · rw [if_neg fun hneed => hsig (isNeedShareModelSub_iff.mp hneed), if_neg hsig, List.foldl_nil]

/-- The message reaches the model. -/
def Reached (b : LightBuild) (k : Nat) (md : ModelId) (k' : Nat) (md' : ModelId) : Prop :=
  (k' = k ∧ md' = md) ∨ (md ∈ b.subShareModelSig ∧ ¬ b.LeftOut k' md')

theorem SharedAt.mem_touched {k' : Nat} {md' : ModelId} (hk : k < b.eleCntEveryLight)
    (h' : b.SharedAt lightIdx k' md') :
    (b.eleAdr lightIdx k', md') ∈ b.touched lightIdx k md ↔ b.Reached k md k' md' := by
  have haddr : (b.eleAdr lightIdx k', md') = (b.eleAdr lightIdx k, md) ↔ k' = k ∧ md' = md := by
    rw [Prod.mk.injEq]
    exact and_congr_left' ⟨fun he => (eleAdr_inj h'.ele hk he).2, fun he => by rw [he]⟩
  rw [touched, List.mem_cons, haddr, Reached]
  refine or_congr_right ?_
  by_cases hsig : md ∈ b.subShareModelSig
  · rw [if_pos hsig, h'.mem_calls_iff, and_iff_right hsig]
  · rw [if_neg hsig]
    exact iff_of_false (List.not_mem_nil) fun h => hsig h.1

/-- A message to another light. -/
theorem SharedAt.not_mem_touched {lightIdx' k' : Nat} {md' : ModelId}
    (hk : k < b.eleCntEveryLight) (h' : b.SharedAt lightIdx' k' md') (hne : lightIdx' ≠ lightIdx) :
    (b.eleAdr lightIdx' k', md') ∉ b.touched lightIdx k md := by
  intro hmem
  rcases List.mem_cons.mp hmem with he | hmem
  · exact hne (eleAdr_inj h'.ele hk (congrArg Prod.fst he)).1
  · split at hmem
    · obtain ⟨j, hj, hcall⟩ := mem_shareModelSubCalls.mp hmem
      exact hne (eleAdr_inj h'.ele hcall.lt hj).1
    · cases hmem

/-- The shared models of a light have one list. -/
def Alike (b : LightBuild) (s : Subs L) (lightIdx : Nat) : Prop :=
  ∀ k md k' md', b.SharedAt lightIdx k md → b.SharedAt lightIdx k' md' →
    s (b.eleAdr lightIdx k, md) = s (b.eleAdr lightIdx k', md')

theorem SharedAt.cfgModelSub_at (hf : ∀ l, f (f l) = f l) (h : b.SharedAt lightIdx k md)
    {k' : Nat} {md' : ModelId} (h' : b.SharedAt lightIdx k' md') :
    (b.Reached k md k' md' →
      cfgModelSub b f (b.eleAdr lightIdx k) md s (b.eleAdr lightIdx k', md') =
      f (s (b.eleAdr lightIdx k', md'))) ∧
    (¬ b.Reached k md k' md' →
      cfgModelSub b f (b.eleAdr lightIdx k) md s (b.eleAdr lightIdx k', md') =
      s (b.eleAdr lightIdx k', md')) := by
  rw [cfgModelSub_eq h.light h.ele h.has, ← SharedAt.mem_touched h.ele h']
  exact ⟨fun hmem => Targets.foldl_applyAt hf h'.has hmem s,
    fun hmem => Targets.foldl_applyAt_of_not_mem hmem s⟩

/-- The lists stay alike when the operation does nothing or reaches every model. -/
theorem SharedAt.alike_iff_reached (hf : ∀ l, f (f l) = f l) (h : b.SharedAt lightIdx k md)
    (hs : b.Alike s lightIdx) :
    b.Alike (cfgModelSub b f (b.eleAdr lightIdx k) md s) lightIdx ↔
      f (s (b.eleAdr lightIdx k, md)) = s (b.eleAdr lightIdx k, md) ∨
        ∀ k' md', b.SharedAt lightIdx k' md' → b.Reached k md k' md' := by
  have hself := (h.cfgModelSub_at (s := s) hf h).1 (.inl ⟨rfl, rfl⟩)
  constructor
  · intro hafter
    by_cases hall : ∀ k' md', b.SharedAt lightIdx k' md' → b.Reached k md k' md'
    · exact .inr hall
    · simp only [not_forall] at hall
      obtain ⟨k', md', h', hnot⟩ := hall
      refine .inl ?_
      rw [← hself, hafter k md k' md' h h', (h.cfgModelSub_at hf h').2 hnot, hs k' md' k md h' h]
  · intro hcond
    -- every shared model has `f` of the common list after the message
    have hone (k' : Nat) (md' : ModelId) (h' : b.SharedAt lightIdx k' md') :
        cfgModelSub b f (b.eleAdr lightIdx k) md s (b.eleAdr lightIdx k', md') =
          f (s (b.eleAdr lightIdx k, md)) := by
      by_cases hreach : b.Reached k md k' md'
      · rw [(h.cfgModelSub_at hf h').1 hreach, hs k' md' k md h' h]
      · rcases hcond with hsame | hall
        · rw [(h.cfgModelSub_at hf h').2 hreach, hsame, hs k' md' k md h' h]
        · exact absurd (hall k' md' h') hreach
    intro k₁ md₁ k₂ md₂ h₁ h₂
    rw [hone k₁ md₁ h₁, hone k₂ md₂ h₂]

/-- The Generic Level server of the last of two or more elements. -/
theorem sharedAt_last (hl : lightIdx < b.lightCnt) (h2 : 2 ≤ b.eleCntEveryLight) :
    b.SharedAt lightIdx (b.eleCntEveryLight - 1) gLevelS where
  light := hl
  ele := by omega
  shared := .inl (by simp [subShareModelSig, b.level_assert h2])
  has := by
    rw [hasModel_eleAdr hl (by omega), if_neg (by omega), decide_eq_true_iff, mem_otherEleModels]
    exact .inl rfl

/-- When a message to a shared model reaches the whole light. -/
def ReachesAll (b : LightBuild) (adr : Nat) (md : ModelId) : Prop :=
  (b.eleCntEveryLight = 1 ∧
    (md ∈ b.subShareModelSig ∨ ∀ md', b.Shared md' → b.hasModel (adr, md') = true → md' = md)) ∨
  ((adr - b.eleAdrPrimary) % b.eleCntEveryLight + 1 = b.eleCntEveryLight ∧ md = gLevelS)

theorem SharedAt.reached_iff (h : b.SharedAt lightIdx k md) :
    (∀ k' md', b.SharedAt lightIdx k' md' → b.Reached k md k' md') ↔
      b.ReachesAll (b.eleAdr lightIdx k) md := by
  rw [ReachesAll, eleAdr_mod h.ele]
  have hk := h.ele
  constructor
  · intro hall
    by_cases h2 : 2 ≤ b.eleCntEveryLight
    · have hlast := hall _ _ (sharedAt_last h.light h2)
      rcases hlast with ⟨hk', hmd⟩ | ⟨-, hnot⟩
      · exact .inr ⟨by omega, hmd.symm⟩
      · exact absurd ⟨h2, by omega, rfl⟩ hnot
    · refine .inl ⟨by omega, ?_⟩
      by_cases hsig : md ∈ b.subShareModelSig
      · exact .inl hsig
      · refine .inr fun md' hshared hhas => ?_
        exact ((hall k md' ⟨h.light, h.ele, hshared, hhas⟩).resolve_right fun hr => hsig hr.1).2
  · rintro (⟨h1, hsig | halone⟩ | ⟨hlast, rfl⟩) k' md' h'
    · exact .inr ⟨hsig, fun hleft => absurd hleft.1 (by omega)⟩
    · have hk' := h'.ele
      obtain rfl : k' = k := by omega
      exact .inl ⟨rfl, halone md' h'.shared h'.has⟩
    · by_cases hleft : b.LeftOut k' md'
      · exact .inl ⟨Nat.succ_inj.mp (hleft.2.1.trans hlast.symm), hleft.2.2⟩
      · refine .inr ⟨h.shared.resolve_right fun hv => ?_, hleft⟩
        obtain ⟨_, hid⟩ := exists_vendor hv
        cases hid

end LightBuild

/-! ### Runs -/

/-- The message does nothing to the list of the model it is addressed to, or it reaches
the whole light, or the model does not share its list. -/
def Shares (b : LightBuild) (apply : Req → L → L) (s : Subs L) (m : SubMsg Req) : Prop :=
  b.Shared m.modelId → apply m.req (s (m.eleAdr, m.modelId)) = s (m.eleAdr, m.modelId) ∨
    b.ReachesAll m.eleAdr m.modelId

theorem alike_step {apply : Req → L → L} (hf : ∀ r l, apply r (apply r l) = apply r l)
    (hs : ∀ lightIdx, b.Alike s lightIdx) {m : SubMsg Req} (hm : Shares b apply s m)
    (lightIdx : Nat) : b.Alike (cfgModelSub b (apply m.req) m.eleAdr m.modelId s) lightIdx := by
  cases hhas : b.hasModel (m.eleAdr, m.modelId) with
  | false =>
    rw [cfgModelSub, hhas]
    exact hs lightIdx
  | true =>
    obtain ⟨light, hl, k, hk, hadr⟩ := LightBuild.exists_eleAdr hhas
    rw [hadr] at hhas ⊢
    by_cases hown : lightIdx = light ∧ b.Shared m.modelId
    · obtain ⟨rfl, hshared⟩ := hown
      have h : b.SharedAt lightIdx k m.modelId := ⟨hl, hk, hshared, hhas⟩
      rw [h.alike_iff_reached (hf m.req) (hs lightIdx), h.reached_iff, ← hadr]
      exact hm hshared
    · -- the message touches no shared model of this light
      have hsame (k' : Nat) (md' : ModelId) (h' : b.SharedAt lightIdx k' md') :
          cfgModelSub b (apply m.req) (b.eleAdr light k) m.modelId s (b.eleAdr lightIdx k', md') =
            s (b.eleAdr lightIdx k', md') := by
        rw [LightBuild.cfgModelSub_eq hl hk hhas]
        refine Targets.foldl_applyAt_of_not_mem ?_ s
        by_cases hlight : lightIdx = light
        · have hnot : ¬ b.Shared m.modelId := fun hsh => hown ⟨hlight, hsh⟩
          rw [LightBuild.touched, if_neg fun hsig => hnot (.inl hsig), List.mem_singleton]
          exact fun he => hnot ((Prod.mk.inj he).2 ▸ h'.shared)
        · exact h'.not_mem_touched hk hlight
      intro k₁ md₁ k₂ md₂ h₁ h₂
      rw [hsame k₁ md₁ h₁, hsame k₂ md₂ h₂]
      exact hs lightIdx k₁ md₁ k₂ md₂ h₁ h₂

theorem alike_reach {apply : Req → L → L} (hf : ∀ r l, apply r (apply r l) = apply r l)
    (h : ((subSys b apply).restrict (Shares b apply)).Reach s) (lightIdx : Nat) :
    b.Alike s lightIdx := by
  refine h.inv (P := fun s => ∀ lightIdx, b.Alike s lightIdx) ?_ ?_ lightIdx
  · intro s h0 lightIdx k md k' md' _ _
    exact h0 _ _
  · rintro s m t hs ⟨hm, rfl⟩
    exact alike_step hf hs hm

/-- **When the lists of a light are shared**: over all runs, and for each message. -/
theorem subscription_shared_iff {apply : Req → L → L}
    (hf : ∀ r l, apply r (apply r l) = apply r l) :
    (∀ s, ((subSys b apply).restrict (Shares b apply)).Reach s → ∀ lightIdx, b.Alike s lightIdx) ∧
    ∀ s lightIdx k md r, b.Alike s lightIdx → b.SharedAt lightIdx k md →
      (b.Alike (cfgModelSub b (apply r) (b.eleAdr lightIdx k) md s) lightIdx ↔
        Shares b apply s ⟨r, b.eleAdr lightIdx k, md⟩) := by
  refine ⟨fun s h => alike_reach hf h, fun s lightIdx k md r hs h => ?_⟩
  rw [h.alike_iff_reached (hf r) hs, h.reached_iff]
  exact ⟨fun hc _ => hc, fun hc => hc h.shared⟩

/-! ### A light of three elements -/

/-- A Light HSL node with its three elements. -/
def hslBuild : LightBuild where
  mdOnoffEn := true
  mdLevelEn := true
  mdLightnessEn := true
  shareAllLightStateModelEn := false
  mdVendor2ndEn := false
  vendorId := 0x0211
  lightType := .hsl
  lightCnt := 1
  eleCntEveryLight := 3
  eleAdrPrimary := 2
  first _ md := decide (md ∈ [gOnoffS, gLevelS, lightnessS, lightHslS])
  eleCnt_pos := by decide
  level_assert _ := rfl
  eleCnt_type _ := by decide

/-- `CFG_MODEL_SUB_ADD` of an address. -/
def subAdd (adr : Nat) (l : List Nat) : List Nat := if adr ∈ l then l else l ++ [adr]

theorem subAdd_idem (adr : Nat) (l : List Nat) : subAdd adr (subAdd adr l) = subAdd adr l := by
  unfold subAdd
  by_cases h : adr ∈ l
  · rw [if_pos h, if_pos h]
  · rw [if_neg h, if_pos (List.mem_append_right l (List.mem_singleton.mpr rfl))]

theorem subscription_shared_iff_level :
    hslBuild.Alike (cfgModelSub hslBuild (subAdd 0xC000)
      (hslBuild.eleAdr 0 2) gLevelS fun _ => []) 0 :=
  ((subscription_shared_iff (b := hslBuild) subAdd_idem).2 (fun _ => []) 0 2 gLevelS 0xC000
    (fun _ _ _ _ _ _ => rfl) ⟨by decide, by decide, .inl (by decide), by decide⟩).mpr
    fun _ => .inr (.inr ⟨by decide, rfl⟩)

/-- An address added to the Generic OnOff server of the first element does not reach the
Generic Level server of the third. -/
theorem subAdd_misses_last : ¬ hslBuild.Alike
    (cfgModelSub hslBuild (subAdd 0xC000) (hslBuild.eleAdr 0 0) gOnoffS fun _ => []) 0 := by
  intro h
  have hlast := h 0 gOnoffS 2 gLevelS ⟨by decide, by decide, .inl (by decide), by decide⟩
    ⟨by decide, by decide, .inl (by decide), by decide⟩
  exact absurd hlast (by decide +kernel)

end PirMesh
