import PirMesh.Library.Run

/-! # Library — One numbered request at a time

A sender has one request outstanding.  It goes out under a number, again and again,
until a confirmation with that number comes back; then the next request may follow,
under a number no message in flight has.  Both ways keep the order of the messages and
may lose any of them.  The receiver acts on whatever arrives, also on a request it has
had, and confirms it by its number.

`goal` is what the receiver is to have after the last request.  The request is on its
way (`Sent`), the receiver has it (`Got`), or the sender knows that it has (`Done`).
Losses, repetitions and deliveries stay within the first two (`Waiting`) and within the
third, the confirmation of the outstanding request leads from one to the other
(`Waiting.confirm`), and the next request back (`Done.request`). -/

namespace StopWait

/-! ### Two parts of a list -/

section

variable {α : Type} {P Q : α → Prop} {l l' : List α} {a : α}

/-- A part where `P` holds, and then one where `Q` does. -/
def Split (P Q : α → Prop) (l : List α) : Prop :=
  ∃ l₁ l₂, l = l₁ ++ l₂ ∧ (∀ x ∈ l₁, P x) ∧ ∀ x ∈ l₂, Q x

theorem Split.of_left (h : ∀ x ∈ l, P x) : Split P Q l :=
  ⟨l, [], (List.append_nil l).symm, h, fun _ hx => absurd hx List.not_mem_nil⟩

theorem Split.snoc (h : Split P Q l) (ha : Q a) : Split P Q (l ++ [a]) := by
  obtain ⟨l₁, l₂, rfl, h₁, h₂⟩ := h
  refine ⟨l₁, l₂ ++ [a], List.append_assoc .., h₁, fun x hx => ?_⟩
  obtain hx | hx := List.mem_append.mp hx
  · exact h₂ x hx
  · exact List.mem_singleton.mp hx ▸ ha

theorem Split.sublist (h : Split P Q l) (hsub : l'.Sublist l) : Split P Q l' := by
  obtain ⟨l₁, l₂, rfl, h₁, h₂⟩ := h
  obtain ⟨m₁, m₂, rfl, hm₁, hm₂⟩ := List.sublist_append_iff.mp hsub
  exact ⟨m₁, m₂, rfl, fun x hx => h₁ x (hm₁.subset hx), fun x hx => h₂ x (hm₂.subset hx)⟩

/-- The head is of the first part, or all is of the second. -/
theorem Split.cons (h : Split P Q (a :: l)) : P a ∧ Split P Q l ∨ ∀ x ∈ a :: l, Q x := by
  obtain ⟨l₁, l₂, hl, h₁, h₂⟩ := h
  cases l₁ with
  | nil =>
    rw [List.nil_append] at hl
    exact .inr (hl ▸ h₂)
  | cons b l₁ =>
    obtain ⟨rfl, rfl⟩ := List.cons.inj hl
    exact .inl ⟨h₁ a List.mem_cons_self, l₁, l₂, rfl,
      fun x hx => h₁ x (List.mem_cons_of_mem a hx), h₂⟩

end

/-! ### The link -/

variable {ν μ σ : Type}

/-- The last request with its number, the requests and confirmations in flight, oldest first,
and the state of the receiver. -/
structure Link (ν μ σ : Type) where
  last : ν
  cmd : μ
  down : List (ν × μ)
  up : List ν
  recv : σ

variable (act : μ → σ → σ) (goal : σ) (k : Link ν μ σ)

/-- The receiver does not have the last request; what is ahead of it changes nothing. -/
structure Sent : Prop where
  down_split : Split (fun x => x.1 ≠ k.last ∧ act x.2 k.recv = k.recv) (· = (k.last, k.cmd)) k.down
  up_ne : ∀ n ∈ k.up, n ≠ k.last
  act_eq : act k.cmd k.recv = goal

structure Got : Prop where
  down_eq : ∀ x ∈ k.down, x = (k.last, k.cmd)
  up_split : Split (· ≠ k.last) (· = k.last) k.up
  recv_eq : k.recv = goal
  act_eq : act k.cmd goal = goal

/-- The sender does not know whether the receiver has the last request. -/
def Waiting : Prop := Sent act goal k ∨ Got act goal k

/-- Nothing but the last request is in flight, and it would change nothing. -/
structure Done : Prop where
  down_eq : ∀ x ∈ k.down, x = (k.last, k.cmd) ∧ act k.cmd goal = goal
  up_eq : ∀ n ∈ k.up, n = k.last ∧ act k.cmd goal = goal
  recv_eq : k.recv = goal

variable {act : μ → σ → σ} {goal : σ} {k : Link ν μ σ} {down : List (ν × μ)} {up : List ν}

/-! ### Losses -/

theorem Waiting.lose (h : Waiting act goal k) (hdown : down.Sublist k.down)
    (hup : up.Sublist k.up) : Waiting act goal { k with down, up } := by
  obtain h | h := h
  · exact .inl ⟨h.down_split.sublist hdown, fun n hn => h.up_ne n (hup.subset hn), h.act_eq⟩
  · exact .inr ⟨fun x hx => h.down_eq x (hdown.subset hx), h.up_split.sublist hup, h.recv_eq,
      h.act_eq⟩

theorem Done.lose (h : Done act goal k) (hdown : down.Sublist k.down) (hup : up.Sublist k.up) :
    Done act goal { k with down, up } :=
  ⟨fun x hx => h.down_eq x (hdown.subset hx), fun n hn => h.up_eq n (hup.subset hn), h.recv_eq⟩

/-! ### Sending -/

theorem Waiting.again (h : Waiting act goal k) :
    Waiting act goal { k with down := k.down ++ [(k.last, k.cmd)] } := by
  obtain h | h := h
  · exact .inl ⟨h.down_split.snoc rfl, h.up_ne, h.act_eq⟩
  · refine .inr ⟨fun x hx => ?_, h.up_split, h.recv_eq, h.act_eq⟩
    obtain hx | hx := List.mem_append.mp hx
    · exact h.down_eq x hx
    · exact List.mem_singleton.mp hx

/-- The next request, under a number that no message in flight has. -/
theorem Done.request {n : ν} {c : μ} {goal' : σ} (h : Done act goal k)
    (hdown : ∀ x ∈ k.down, x.1 ≠ n) (hup : ∀ m ∈ k.up, m ≠ n) (hgoal : act c goal = goal') :
    Sent act goal' { k with last := n, cmd := c, down := k.down ++ [(n, c)] } := by
  refine ⟨Split.snoc (.of_left fun x hx => ⟨hdown x hx, ?_⟩) rfl, hup, ?_⟩
  · obtain ⟨hx, hact⟩ := h.down_eq x hx
    show act x.2 k.recv = k.recv
    rw [hx, h.recv_eq, hact]
  · show act c k.recv = goal'
    rw [h.recv_eq, hgoal]

/-! ### Deliveries -/

variable {x : ν × μ} {rest : List (ν × μ)}

/-- What arrives changes nothing or is the last request. -/
theorem Waiting.act_head (h : Waiting act goal k) (hk : k.down = x :: rest) :
    act x.2 k.recv = k.recv ∨ act x.2 k.recv = goal := by
  obtain h | h := h
  · obtain ⟨⟨-, hsame⟩, -⟩ | hall := (hk ▸ h.down_split).cons
    · exact .inl hsame
    · exact .inr (by rw [hall x List.mem_cons_self, h.act_eq])
  · exact .inr (by rw [h.down_eq x (hk ▸ List.mem_cons_self), h.recv_eq, h.act_eq])

theorem Done.act_head (h : Done act goal k) (hk : k.down = x :: rest) :
    act x.2 k.recv = goal := by
  obtain ⟨hx, hact⟩ := h.down_eq x (hk ▸ List.mem_cons_self)
  rw [hx, h.recv_eq, hact]

/-- A request arrives that the receiver acts on and will confirm. -/
theorem Waiting.deliver (hidem : ∀ c s, act c (act c s) = act c s) (h : Waiting act goal k)
    (hk : k.down = x :: rest) :
    Waiting act goal { k with down := rest, up := k.up ++ [x.1], recv := act x.2 k.recv } := by
  obtain h | h := h
  · obtain ⟨⟨hne, hsame⟩, hrest⟩ | hall := (hk ▸ h.down_split).cons
    · -- one of an earlier request
      refine .inl ⟨?_, fun n hn => ?_, ?_⟩
      · show Split (fun y => y.1 ≠ k.last ∧ act y.2 (act x.2 k.recv) = act x.2 k.recv) _ rest
        rw [hsame]
        exact hrest
      · obtain hn | hn := List.mem_append.mp hn
        · exact h.up_ne n hn
        · exact List.mem_singleton.mp hn ▸ hne
      · show act k.cmd (act x.2 k.recv) = goal
        rw [hsame, h.act_eq]
    · -- the last request, for the first time
      have hx := hall x List.mem_cons_self
      refine .inr ⟨fun y hy => hall y (List.mem_cons_of_mem x hy), ?_, ?_, ?_⟩
      · exact Split.snoc (.of_left h.up_ne) (congrArg Prod.fst hx)
      · show act x.2 k.recv = goal
        rw [hx, h.act_eq]
      · show act k.cmd goal = goal
        rw [← h.act_eq, hidem]
  · have hx := h.down_eq x (hk ▸ List.mem_cons_self)
    refine .inr ⟨fun y hy => h.down_eq y (hk ▸ List.mem_cons_of_mem x hy),
      h.up_split.snoc (congrArg Prod.fst hx), ?_, h.act_eq⟩
    show act x.2 k.recv = goal
    rw [hx, h.recv_eq, h.act_eq]

theorem Done.deliver (h : Done act goal k) (hk : k.down = x :: rest) :
    Done act goal { k with down := rest, up := k.up ++ [x.1], recv := act x.2 k.recv } := by
  obtain ⟨hx, hact⟩ := h.down_eq x (hk ▸ List.mem_cons_self)
  refine ⟨fun y hy => h.down_eq y (hk ▸ List.mem_cons_of_mem x hy), fun n hn => ?_, h.act_head hk⟩
  obtain hn | hn := List.mem_append.mp hn
  · exact h.up_eq n hn
  · exact ⟨(List.mem_singleton.mp hn).trans (congrArg Prod.fst hx), hact⟩

/-- The number of the last request comes back. -/
theorem Waiting.confirm (h : Waiting act goal k) (hk : k.up = k.last :: up) :
    Done act goal { k with up } := by
  obtain h | h := h
  · exact absurd rfl (h.up_ne k.last (hk ▸ List.mem_cons_self))
  · refine ⟨fun x hx => ⟨h.down_eq x hx, h.act_eq⟩, fun n hn => ⟨?_, h.act_eq⟩, h.recv_eq⟩
    obtain ⟨hne, -⟩ | hall := (hk ▸ h.up_split).cons
    · exact absurd rfl hne
    · exact hall n (List.mem_cons_of_mem _ hn)

end StopWait
