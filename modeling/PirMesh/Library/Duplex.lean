import Mathlib.Logic.Relation

/-! # Library — Two parties and two queues

Each party takes one message at a time from a queue of its own and answers with messages that go to
the end of the other's queue.  Which party is served next is open.

Serving one party leaves the head of the other's queue alone, so the two orders meet again
(`Step.diamond`).  A run to a state where both queues are empty therefore tells of every run: none
is longer, and each can be completed to the same state (`Steps.completes`).

The messages may travel in packets that the receiver puts together.  Where a link carries a message
whatever came before it, the parties over the links do what they do without (`Served.over`). -/

namespace Duplex

/-- The two parties, with the messages that are on their way to each. -/
structure Pair (σ τ μ ν : Type) where
  left : σ
  right : τ
  toLeft : List μ
  toRight : List ν

variable {σ τ μ ν : Type}

/-- The new state of a party and its answers. -/
abbrev Party (σ μ ν : Type) : Type := σ → μ → σ × List ν

variable (L : Party σ μ ν) (R : Party τ ν μ)

namespace Pair

/-- The left party takes the head of its queue. -/
def serveLeft (s : Pair σ τ μ ν) (m : μ) (ms : List μ) : Pair σ τ μ ν :=
  ⟨(L s.left m).1, s.right, ms, s.toRight ++ (L s.left m).2⟩

def serveRight (s : Pair σ τ μ ν) (m : ν) (ms : List ν) : Pair σ τ μ ν :=
  ⟨s.left, (R s.right m).1, s.toLeft ++ (R s.right m).2, ms⟩

/-- Nothing is on its way. -/
structure Quiet (s : Pair σ τ μ ν) : Prop where
  left : s.toLeft = []
  right : s.toRight = []

end Pair

inductive Step : Pair σ τ μ ν → Pair σ τ μ ν → Prop
  | left {s : Pair σ τ μ ν} {m : μ} {ms : List μ} (h : s.toLeft = m :: ms) :
      Step s (s.serveLeft L m ms)
  | right {s : Pair σ τ μ ν} {m : ν} {ms : List ν} (h : s.toRight = m :: ms) :
      Step s (s.serveRight R m ms)

/-- A run of `n` messages. -/
inductive Steps : Nat → Pair σ τ μ ν → Pair σ τ μ ν → Prop
  | nil (s : Pair σ τ μ ν) : Steps 0 s s
  | cons {n : Nat} {s t u : Pair σ τ μ ν} (h : Step L R s t) (hs : Steps n t u) : Steps (n + 1) s u

variable {L R}

theorem Pair.Quiet.not_step {s t : Pair σ τ μ ν} (hs : s.Quiet) : ¬ Step L R s t := by
  rintro (h | h)
  · exact absurd (hs.left.symm.trans h) (List.cons_ne_nil _ _).symm
  · exact absurd (hs.right.symm.trans h) (List.cons_ne_nil _ _).symm

/-- Serving one party and then the other, in either order. -/
theorem Pair.serve_comm (s : Pair σ τ μ ν) (m : μ) (ms : List μ) (m' : ν) (ms' : List ν) :
    (s.serveLeft L m ms).serveRight R m' (ms' ++ (L s.left m).2) =
      (s.serveRight R m' ms').serveLeft L m (ms ++ (R s.right m').2) := rfl

/-- Where both can be served, the orders meet. -/
theorem Step.meet {s : Pair σ τ μ ν} {m : μ} {ms : List μ} {m' : ν} {ms' : List ν}
    (h : s.toLeft = m :: ms) (h' : s.toRight = m' :: ms') :
    ∃ v, Step L R (s.serveLeft L m ms) v ∧ Step L R (s.serveRight R m' ms') v := by
  have hright : (s.serveLeft L m ms).toRight = m' :: (ms' ++ (L s.left m).2) :=
    congrArg (· ++ (L s.left m).2) h'
  have hleft : (s.serveRight R m' ms').toLeft = m :: (ms ++ (R s.right m').2) :=
    congrArg (· ++ (R s.right m').2) h
  refine ⟨_, .right hright, ?_⟩
  rw [Pair.serve_comm]
  exact .left hleft

/-- **The two orders meet.** -/
theorem Step.diamond {s t u : Pair σ τ μ ν} (ht : Step L R s t) (hu : Step L R s u) :
    t = u ∨ ∃ v, Step L R t v ∧ Step L R u v := by
  cases ht with
  | left h =>
    cases hu with
    | left h' =>
      rw [h] at h'
      cases h'
      exact .inl rfl
    | right h' => exact .inr (Step.meet h h')
  | right h =>
    cases hu with
    | right h' =>
      rw [h] at h'
      cases h'
      exact .inl rfl
    | left h' =>
      obtain ⟨v, hv, hv'⟩ := Step.meet (L := L) (R := R) h' h
      exact .inr ⟨v, hv', hv⟩

theorem Steps.append {n k : Nat} {s t u : Pair σ τ μ ν} (h : Steps L R n s t)
    (h' : Steps L R k t u) : Steps L R (k + n) s u := by
  induction h with
  | nil => exact h'
  | cons hstep _ ih => exact .cons hstep (ih h')

/-- The same pair from the other side. -/
def Pair.swap (s : Pair σ τ μ ν) : Pair τ σ ν μ := ⟨s.right, s.left, s.toRight, s.toLeft⟩

theorem Steps.swap {n : Nat} {s t : Pair σ τ μ ν} (h : Steps L R n s t) :
    Steps R L n s.swap t.swap := by
  induction h with
  | nil s => exact .nil _
  | cons hstep _ ih =>
    cases hstep with
    | left h => exact .cons (.right h) ih
    | right h => exact .cons (.left h) ih

/-- **One run to the end tells of every run.** -/
theorem Steps.completes {n : Nat} {s q : Pair σ τ μ ν} (hq : q.Quiet) (h : Steps L R n s q)
    {k : Nat} {t : Pair σ τ μ ν} (hk : Steps L R k s t) : k ≤ n ∧ Steps L R (n - k) t q := by
  induction n generalizing s k t with
  | zero =>
    cases h
    cases hk with
    | nil => exact ⟨Nat.le_refl 0, .nil _⟩
    | cons hstep => exact absurd hstep hq.not_step
  | succ n ih =>
    cases hk with
    | nil => exact ⟨Nat.zero_le _, h⟩
    | @cons k _ b _ hb hrest =>
      cases h with
      | @cons _ _ a _ ha hend =>
        have hbq : Steps L R n b q := by
          rcases ha.diamond hb with rfl | ⟨c, hac, hbc⟩
          · exact hend
          · obtain ⟨hone, hcq⟩ := ih hend (Steps.cons hac (.nil c))
            obtain ⟨m, rfl⟩ := Nat.exists_eq_add_of_le' hone
            exact .cons hbc hcq
        obtain ⟨hle, htq⟩ := ih hbq hrest
        rw [Nat.succ_sub_succ]
        exact ⟨Nat.succ_le_succ hle, htq⟩

/-! ### Runs of chosen messages -/

/-- A run in which the messages that are served meet conditions. -/
inductive Served (L : Party σ μ ν) (R : Party τ ν μ) (P : μ → Prop) (Q : ν → Prop) :
    Nat → Pair σ τ μ ν → Pair σ τ μ ν → Prop
  | nil (s : Pair σ τ μ ν) : Served L R P Q 0 s s
  | left {n : Nat} {s u : Pair σ τ μ ν} {m : μ} {ms : List μ} (h : s.toLeft = m :: ms) (hm : P m)
      (hs : Served L R P Q n (s.serveLeft L m ms) u) : Served L R P Q (n + 1) s u
  | right {n : Nat} {s u : Pair σ τ μ ν} {m : ν} {ms : List ν} (h : s.toRight = m :: ms) (hm : Q m)
      (hs : Served L R P Q n (s.serveRight R m ms) u) : Served L R P Q (n + 1) s u

variable {P : μ → Prop} {Q : ν → Prop}

theorem Served.steps {n : Nat} {s t : Pair σ τ μ ν} (h : Served L R P Q n s t) :
    Steps L R n s t := by
  induction h with
  | nil s => exact .nil s
  | left h _ _ ih => exact .cons (.left h) ih
  | right h _ _ ih => exact .cons (.right h) ih

theorem Served.mono {P' : μ → Prop} {Q' : ν → Prop} (hP : ∀ m, P m → P' m) (hQ : ∀ m, Q m → Q' m)
    {n : Nat} {s t : Pair σ τ μ ν} (h : Served L R P Q n s t) : Served L R P' Q' n s t := by
  induction h with
  | nil s => exact .nil s
  | left h hm _ ih => exact .left h (hP _ hm) ih
  | right h hm _ ih => exact .right h (hQ _ hm) ih

theorem Served.append {n k : Nat} {s t u : Pair σ τ μ ν} (h : Served L R P Q n s t)
    (h' : Served L R P Q k t u) : Served L R P Q (k + n) s u := by
  induction h with
  | nil => exact h'
  | left h hm _ ih => exact .left h hm (ih h')
  | right h hm _ ih => exact .right h hm (ih h')

/-! ### Messages in packets -/

variable {π ρ κ o : Type}

/-- How a message is cut into packets, and what the receiver makes of a packet. -/
structure Link (μ π ρ : Type) where
  packets : μ → List π
  recv : ρ → π → ρ × Option μ

namespace Link

variable (l : Link μ π ρ)

/-- The receiver behind packets, and the messages that it put together. -/
def feed (r : ρ) : List π → ρ × List μ
  | [] => (r, [])
  | p :: ps => ((feed (l.recv r p).1 ps).1, (l.recv r p).2.toList ++ (feed (l.recv r p).1 ps).2)

/-- The packets of the message give the message, whatever came before. -/
def Carries (m : μ) : Prop := ∀ r, (l.feed r (l.packets m)).2 = [m]

end Link

/-- A party behind a receiver. -/
def Party.over (L : Party σ μ ν) (l : Link μ π ρ) (packets : ν → List o) : Party (σ × ρ) π o :=
  fun s p =>
    match (l.recv s.2 p).2 with
    | none => ((s.1, (l.recv s.2 p).1), [])
    | some m => (((L s.1 m).1, (l.recv s.2 p).1), (L s.1 m).2.flatMap packets)

/-- The party takes messages one after the other. -/
def Party.takes (L : Party σ μ ν) (s : σ) : List μ → σ × List ν
  | [] => (s, [])
  | m :: ms => ((L.takes (L s m).1 ms).1, (L s m).2 ++ (L.takes (L s m).1 ms).2)

variable {ρ' : Type} {l : Link μ π ρ} {l' : Link ν o ρ'}

/-- The parties over the two links. -/
abbrev Over (L : Party σ μ ν) (R : Party τ ν μ) (l : Link μ π ρ) (l' : Link ν o ρ') :
    Nat → Pair (σ × ρ) (τ × ρ') π o → Pair (σ × ρ) (τ × ρ') π o → Prop :=
  Steps (L.over l l'.packets) (R.over l' l.packets)

variable (L R l l') in
/-- Packets at the head of the left queue. -/
theorem over_left (s : σ) (r : ρ) (t : τ × ρ') (ps q : List π) (w : List o) :
    Over L R l l' ps.length ⟨(s, r), t, ps ++ q, w⟩
      ⟨((L.takes s (l.feed r ps).2).1, (l.feed r ps).1), t, q,
        w ++ (L.takes s (l.feed r ps).2).2.flatMap l'.packets⟩ := by
  induction ps generalizing s r w with
  | nil =>
    rw [Link.feed, Party.takes, List.flatMap_nil, List.append_nil]
    exact .nil _
  | cons p ps ih =>
    refine .cons (.left rfl) ?_
    unfold Pair.serveLeft Party.over
    rw [Link.feed]
    dsimp only
    cases hrecv : (l.recv r p).2 with
    | none =>
      rw [List.append_nil, Option.toList_none, List.nil_append]
      exact ih s (l.recv r p).1 w
    | some m =>
      rw [Option.toList_some, List.singleton_append, Party.takes, List.flatMap_append,
        ← List.append_assoc]
      exact ih (L s m).1 (l.recv r p).1 (w ++ (L s m).2.flatMap l'.packets)

variable (L R l l') in
/-- Packets at the head of the right queue. -/
theorem over_right (s : σ × ρ) (t : τ) (r : ρ') (q : List π) (ps w : List o) :
    Over L R l l' ps.length ⟨s, (t, r), q, ps ++ w⟩
      ⟨s, ((R.takes t (l'.feed r ps).2).1, (l'.feed r ps).1),
        q ++ (R.takes t (l'.feed r ps).2).2.flatMap l.packets, w⟩ :=
  (over_left R L l' l t r s ps w q).swap

/-- The packets of what is on its way. -/
def Pair.over (s : Pair σ τ μ ν) (l : Link μ π ρ) (l' : Link ν o ρ') (r : ρ) (r' : ρ') :
    Pair (σ × ρ) (τ × ρ') π o :=
  ⟨(s.left, r), (s.right, r'), s.toLeft.flatMap l.packets, s.toRight.flatMap l'.packets⟩

/-- **A run of messages that the links carry is a run of their packets**, whatever the receivers
have. -/
theorem Served.over {n : Nat} {s t : Pair σ τ μ ν} (h : Served L R l.Carries l'.Carries n s t)
    (r : ρ) (r' : ρ') : ∃ k u u', Over L R l l' k (s.over l l' r r') (t.over l l' u u') := by
  induction h generalizing r r' with
  | nil s => exact ⟨0, r, r', .nil _⟩
  | @left n s t m ms h hm _ ih =>
    obtain ⟨k, u, u', hrun⟩ := ih (l.feed r (l.packets m)).1 r'
    have hstep := over_left L R l l' s.left r (s.right, r') (l.packets m)
      (ms.flatMap l.packets) (s.toRight.flatMap l'.packets)
    rw [hm r] at hstep
    refine ⟨k + (l.packets m).length, u, u', Steps.append ?_ hrun⟩
    unfold Pair.over
    rw [h, List.flatMap_cons]
    unfold Pair.serveLeft
    dsimp only
    rw [List.flatMap_append]
    have htakes : (L.takes s.left [m]).2 = (L s.left m).2 := List.append_nil _
    rwa [htakes] at hstep
  | @right n s t m ms h hm _ ih =>
    obtain ⟨k, u, u', hrun⟩ := ih r (l'.feed r' (l'.packets m)).1
    have hstep := over_right L R l l' (s.left, r) s.right r'
      (s.toLeft.flatMap l.packets) (l'.packets m) (ms.flatMap l'.packets)
    rw [hm r'] at hstep
    refine ⟨k + (l'.packets m).length, u, u', Steps.append ?_ hrun⟩
    unfold Pair.over
    rw [h, List.flatMap_cons]
    unfold Pair.serveRight
    dsimp only
    rw [List.flatMap_append]
    have htakes : (R.takes s.right [m]).2 = (R s.right m).2 := List.append_nil _
    rwa [htakes] at hstep

theorem Pair.Quiet.over {s : Pair σ τ μ ν} (h : s.Quiet) (r : ρ) (r' : ρ') :
    (s.over l l' r r').Quiet :=
  ⟨by rw [Pair.over, h.left]; rfl, by rw [Pair.over, h.right]; rfl⟩

end Duplex
