import Mathlib.Data.Option.Basic

/-! # Library — Property lists

A value is a text, a number, an array or a dictionary.  A dictionary is kept as the assignments
that fill it, one for each key; to assign nothing leaves the key out.

A record that is written key by key is read back key by key: a key that is not there leaves the
field as it was.  `read_eq` says what a field is then; the other laws are its cases, one for each
kind of value. -/

namespace PirMesh

inductive PropertyList (κ ν : Type)
  | text (t : List Char)
  | number (n : ν)
  | array (values : List (PropertyList κ ν))
  | dict (entries : List (κ × Option (PropertyList κ ν)))

namespace PropertyList

variable {κ ν α β : Type}

/-! ### Values -/

def asText : PropertyList κ ν → Option (List Char)
  | .text t => some t
  | .number _ | .array _ | .dict _ => none

def asNumber [Zero ν] : PropertyList κ ν → ν
  | .number n => n
  | .text _ | .array _ | .dict _ => 0

def asArray : PropertyList κ ν → List (PropertyList κ ν)
  | .array values => values
  | .text _ | .number _ | .dict _ => []

def asDict : PropertyList κ ν → List (κ × Option (PropertyList κ ν))
  | .dict entries => entries
  | .text _ | .number _ | .array _ => []

theorem filterMap_asText (l : List (List Char)) :
    (l.map .text : List (PropertyList κ ν)).filterMap asText = l := by
  rw [List.filterMap_map]
  exact List.filterMap_some

/-! ### Dictionaries -/

abbrev Dict (κ ν : Type) : Type := List (κ × Option (PropertyList κ ν))

namespace Dict

/-- No key is there. -/
def isEmpty (d : Dict κ ν) : Bool := d.all fun e => e.2.isNone

/-- Read back into `old`, when there is a key. -/
def update (d : Dict κ ν) (old new : α) : α := if d.isEmpty then old else new

/-- A record of which nothing is there stays as it was. -/
theorem update_of_reads {d : Dict κ ν} {old new : α} (h : d.isEmpty = true → new = old) :
    d.update old new = new := by
  unfold update
  by_cases hempty : d.isEmpty = true
  · rw [if_pos hempty]
    exact (h hempty).symm
  · rw [if_neg hempty]

variable [DecidableEq κ]

def get (d : Dict κ ν) (k : κ) : Option (PropertyList κ ν) := (d.lookup k).join

/-- A field that is read with `f`, when the key is there. -/
def read (d : Dict κ ν) (k : κ) (f : PropertyList κ ν → α) (old : α) : α := (d.get k).elim old f

variable {d : Dict κ ν} {k : κ} {f : PropertyList κ ν → α} {old new a : α}

theorem get_of_isEmpty (h : d.isEmpty = true) (k : κ) : d.get k = none := by
  induction d with
  | nil => rfl
  | cons e d ih =>
    obtain ⟨he, hd⟩ := (Bool.and_eq_true _ _).mp h
    obtain ⟨k', v⟩ := e
    unfold get
    rw [List.lookup_cons]
    cases k == k' with
    | true => exact Option.isNone_iff_eq_none.mp he
    | false => exact ih hd

theorem read_of_isEmpty (h : d.isEmpty = true) (k : κ) (f : PropertyList κ ν → α) (old : α) :
    d.read k f old = old := by
  unfold read
  rw [get_of_isEmpty h]
  rfl

theorem update_of_get {v : PropertyList κ ν} (h : d.get k = some v) : d.update old new = new := by
  refine if_neg fun hempty => ?_
  rw [get_of_isEmpty hempty] at h
  exact absurd h (Option.some_ne_none v).symm

/-- **A field reads** what was written for it. -/
theorem read_eq {o : Option β} {w : β → PropertyList κ ν} (h : d.get k = o.map w)
    (hsome : ∀ x ∈ o, f (w x) = a) (hnone : o = none → old = a) : d.read k f old = a := by
  unfold read
  rw [h]
  cases o with
  | none => exact hnone rfl
  | some x => exact hsome x rfl

/-- A value that is always written. -/
theorem read_some {v : PropertyList κ ν} (h : d.get k = some v) (hv : f v = a) :
    d.read k f old = a := by
  unfold read
  rw [h]
  exact hv

theorem read_text {o old : Option (List Char)} (h : d.get k = o.map .text)
    (hnone : o = none → old = none) : d.read k asText old = o := by
  refine read_eq h (fun x hx => ?_) fun ho => ?_
  · exact (Option.mem_def.mp hx).symm
  · exact (hnone ho).trans ho.symm

theorem read_array {o : Option (List β)} {w : β → PropertyList κ ν} {r : PropertyList κ ν → β}
    {g : β → β} {old : Option (List β)} (h : d.get k = o.map fun l => .array (l.map w))
    (hread : ∀ l ∈ o, ∀ x ∈ l, r (w x) = g x) (hnone : o = none → old = none) :
    d.read k (fun v => some (v.asArray.map r)) old = o.map (List.map g) := by
  refine read_eq h (fun l hl => ?_) fun ho => ?_
  · rw [Option.mem_def.mp hl]
    refine congrArg some ((List.map_map ..).trans (List.map_congr_left ?_))
    exact hread l hl
  · rw [ho]
    exact hnone ho

theorem read_array_same {o : Option (List β)} {w : β → PropertyList κ ν}
    {r : PropertyList κ ν → β} {old : Option (List β)}
    (h : d.get k = o.map fun l => .array (l.map w)) (hread : ∀ l ∈ o, ∀ x ∈ l, r (w x) = x)
    (hnone : o = none → old = none) : d.read k (fun v => some (v.asArray.map r)) old = o := by
  refine (read_array (g := id) h hread hnone).trans ?_
  rw [List.map_id_fun]
  exact Option.map_id_apply

theorem read_texts {o old : Option (List (List Char))}
    (h : d.get k = o.map fun l => .array (l.map .text)) (hnone : o = none → old = none) :
    d.read k (fun v => some (v.asArray.filterMap asText)) old = o := by
  refine read_eq h (fun l hl => ?_) fun ho => ?_
  · rw [Option.mem_def.mp hl]
    exact congrArg some (filterMap_asText l)
  · exact (hnone ho).trans ho.symm

theorem read_dict {o : Option β} {w : β → Dict κ ν} {r : Dict κ ν → β} {old : Option β}
    (h : d.get k = o.map fun x => .dict (w x)) (hread : ∀ x ∈ o, r (w x) = x)
    (hnone : o = none → old = none) : d.read k (fun v => some (r v.asDict)) old = o := by
  refine read_eq h (fun x hx => ?_) fun ho => ?_
  · rw [Option.mem_def.mp hx]
    exact congrArg some (hread x hx)
  · exact (hnone ho).trans ho.symm

end Dict

end PropertyList

end PirMesh
