import Mathlib.Data.List.Nodup

/-! # Library — Registers

A register is a list with one entry for each key.  `enter` puts an entry in the place of the one of
its key, or at the end: the list stays a register (`nodup_enter`), and the other entries stay in it
(`mem_enter`).  `enterAll` enters one after the other. -/

namespace Register

variable {α β : Type} [DecidableEq β] (key : α → β)

def enter (entry : α) : List α → List α
  | [] => [entry]
  | old :: rest => if key old = key entry then entry :: rest else old :: enter entry rest

def enterAll (register entries : List α) : List α :=
  entries.foldl (fun register entry => enter key entry register) register

variable {key} {entry a : α} {register entries : List α}

theorem self_mem_enter : entry ∈ enter key entry register := by
  induction register with
  | nil => exact List.mem_singleton_self entry
  | cons old rest ih =>
    rw [enter]
    split
    · exact List.mem_cons_self
    · exact List.mem_cons_of_mem old ih

theorem eq_or_mem_of_mem_enter (h : a ∈ enter key entry register) : a = entry ∨ a ∈ register := by
  induction register with
  | nil => exact .inl (List.mem_singleton.mp h)
  | cons old rest ih =>
    rw [enter] at h
    split at h
    · cases h with
      | head => exact .inl rfl
      | tail _ hrest => exact .inr (.tail old hrest)
    · cases h with
      | head => exact .inr (.head rest)
      | tail _ hrest => exact (ih hrest).imp_right (.tail old)

theorem mem_enter_of_key_ne (hne : key a ≠ key entry) (h : a ∈ register) :
    a ∈ enter key entry register := by
  induction h with
  | head rest =>
    rw [enter, if_neg hne]
    exact .head _
  | tail old _ ih =>
    rw [enter]
    split
    · exact .tail entry ‹_›
    · exact .tail old ih

theorem nodup_enter (h : (register.map key).Nodup) :
    ((enter key entry register).map key).Nodup := by
  induction register with
  | nil => exact List.nodup_singleton _
  | cons old rest ih =>
    obtain ⟨hold, hrest⟩ := List.nodup_cons.mp h
    rw [enter]
    split
    case isTrue hkey => exact List.nodup_cons.mpr ⟨hkey ▸ hold, hrest⟩
    case isFalse hkey =>
      refine List.nodup_cons.mpr ⟨fun hmem => ?_, ih hrest⟩
      obtain ⟨b, hb, hbkey⟩ := List.mem_map.mp hmem
      rcases eq_or_mem_of_mem_enter hb with rfl | hin
      · exact hkey hbkey.symm
      · exact hold (hbkey ▸ List.mem_map_of_mem hin)

/-- The entry that had the key is gone. -/
theorem mem_enter (h : (register.map key).Nodup) :
    a ∈ enter key entry register ↔ a = entry ∨ key a ≠ key entry ∧ a ∈ register := by
  constructor
  · intro hmem
    by_cases hkey : key a = key entry
    · exact .inl (List.inj_on_of_nodup_map (nodup_enter h) hmem self_mem_enter hkey)
    · refine .inr ⟨hkey, (eq_or_mem_of_mem_enter hmem).resolve_left fun heq => hkey ?_⟩
      rw [heq]
  · rintro (rfl | ⟨hne, hmem⟩)
    · exact self_mem_enter
    · exact mem_enter_of_key_ne hne hmem

/-! ### Entries entered one after the other -/

theorem enterAll_concat (register entries : List α) (entry : α) :
    enterAll key register (entries ++ [entry]) = enter key entry (enterAll key register entries) :=
  List.foldl_concat ..

theorem mem_of_mem_enterAll (h : a ∈ enterAll key register entries) :
    a ∈ entries ∨ a ∈ register := by
  induction entries generalizing register with
  | nil => exact .inr h
  | cons entry entries ih =>
    cases ih h with
    | inl hin => exact .inl (.tail entry hin)
    | inr hin =>
      cases eq_or_mem_of_mem_enter hin with
      | inl heq => exact .inl (heq ▸ .head entries)
      | inr hmem => exact .inr hmem

theorem nodup_enterAll (h : (register.map key).Nodup) :
    ((enterAll key register entries).map key).Nodup := by
  induction entries generalizing register with
  | nil => exact h
  | cons entry entries ih => exact ih (nodup_enter h)

end Register
