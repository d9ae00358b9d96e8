import Mathlib.Data.List.Forall2
import Mathlib.Data.List.Induction

/-!
# Computations that may fail

What is known of the parts of a computation that has a result (`bind_eq_ok`,
`mapError_eq_ok`, `map_eq_ok`), and of the steps of a loop that stops at the first error
(`mapM_iff`, `mem_of_mapM`, `foldlM_invariant`). A computation has a result if its parts have
(`exists_bind_iff`, `exists_mapM_iff`, `exists_foldlM`).
-/

namespace Lib.Except

variable {α β ε ε' : Type} {b : β}

theorem bind_eq_ok {x : Except ε α} {f : α → Except ε β} :
    x >>= f = .ok b ↔ ∃ a, x = .ok a ∧ f a = .ok b := by
  rcases x with e | a
  · exact ⟨fun h => absurd h nofun, fun ⟨_, h, _⟩ => absurd h nofun⟩
  · exact ⟨fun h => ⟨a, rfl, h⟩, fun ⟨_, ha, h⟩ => by cases ha; exact h⟩

theorem map_eq_ok {x : Except ε α} {f : α → β} : x.map f = .ok b ↔ ∃ a, x = .ok a ∧ f a = b := by
  rcases x with e | a
  · exact ⟨fun h => absurd h nofun, fun ⟨_, h, _⟩ => absurd h nofun⟩
  · exact ⟨fun h => ⟨a, rfl, Except.ok.inj h⟩, fun ⟨_, ha, h⟩ => by cases ha; exact congrArg _ h⟩

theorem mapError_eq_ok {x : Except ε α} {f : ε → ε'} {a : α} :
    x.mapError f = .ok a ↔ x = .ok a := by
  rcases x with e | a
  · exact ⟨fun h => absurd h nofun, fun h => absurd h nofun⟩
  · exact ⟨fun h => by cases h; rfl, fun h => by cases h; rfl⟩

/-- A loop that stops at the first error has related results if and only if all its steps
    have. -/
theorem mapM_iff {f : α → Except ε β} {R : α → β → Prop} {l : List α} :
    (∃ bs, l.mapM f = .ok bs ∧ List.Forall₂ R l bs) ↔ ∀ a ∈ l, ∃ b, f a = .ok b ∧ R a b := by
  induction l with
  | nil => exact ⟨fun _ => nofun, fun _ => ⟨[], rfl, .nil⟩⟩
  | cons a l ih =>
    rw [List.forall_mem_cons, ← ih, List.mapM_cons]
    constructor
    · rintro ⟨bs, h, hr⟩
      obtain ⟨b, ha, h⟩ := bind_eq_ok.1 h
      obtain ⟨bs, hl, h⟩ := bind_eq_ok.1 h
      cases h
      obtain ⟨hb, hbs⟩ := List.forall₂_cons.1 hr
      exact ⟨⟨b, ha, hb⟩, bs, hl, hbs⟩
    · rintro ⟨⟨b, ha, hb⟩, bs, hl, hbs⟩
      rw [ha, hl]
      exact ⟨b :: bs, rfl, .cons hb hbs⟩

/-- The results of a loop are those of its steps. -/
theorem mem_of_mapM {f : α → Except ε β} {l : List α} {bs : List β} (h : l.mapM f = .ok bs) :
    b ∈ bs ↔ ∃ a ∈ l, f a = .ok b := by
  induction l generalizing bs with
  | nil =>
    cases h
    exact ⟨fun h => absurd h List.not_mem_nil, fun ⟨_, h, _⟩ => absurd h List.not_mem_nil⟩
  | cons a l ih =>
    rw [List.mapM_cons] at h
    obtain ⟨b', ha, h⟩ := bind_eq_ok.1 h
    obtain ⟨bs, hl, h⟩ := bind_eq_ok.1 h
    cases h
    simp only [List.mem_cons, exists_eq_or_imp, ha, ih hl, Except.ok.injEq, eq_comm (a := b)]

/-- What holds of a loop before its first step, and is kept by each of its steps, holds of
    its result. -/
theorem foldlM_invariant {f : β → α → Except ε β} {P : List α → β → Prop} {l : List α} {b₀ : β}
    (h : l.foldlM f b₀ = .ok b) (h₀ : P [] b₀)
    (step : ∀ l a b b', P l b → f b a = .ok b' → P (l ++ [a]) b') : P l b := by
  induction l using List.reverseRecOn generalizing b with
  | nil =>
    cases h
    exact h₀
  | append_singleton l a ih =>
    rw [List.foldlM_append] at h
    obtain ⟨b', hl, h⟩ := bind_eq_ok.1 h
    rw [List.foldlM_cons] at h
    obtain ⟨b'', ha, h⟩ := bind_eq_ok.1 h
    cases h
    exact step l a b' b (ih hl) ha

/-! ## Having a result -/

theorem exists_bind_iff {x : Except ε α} {f : α → Except ε β} :
    (∃ b, x >>= f = .ok b) ↔ ∃ a, x = .ok a ∧ ∃ b, f a = .ok b := by
  constructor
  · rintro ⟨b, h⟩
    obtain ⟨a, ha, hb⟩ := bind_eq_ok.1 h
    exact ⟨a, ha, b, hb⟩
  · rintro ⟨a, ha, b, hb⟩
    exact ⟨b, bind_eq_ok.2 ⟨a, ha, hb⟩⟩

theorem exists_mapM_iff {f : α → Except ε β} {l : List α} :
    (∃ bs, l.mapM f = .ok bs) ↔ ∀ a ∈ l, ∃ b, f a = .ok b := by
  induction l with
  | nil => exact ⟨fun _ => nofun, fun _ => ⟨[], rfl⟩⟩
  | cons a l ih =>
    rw [List.forall_mem_cons, ← ih, List.mapM_cons, exists_bind_iff]
    constructor
    · rintro ⟨b, ha, h⟩
      obtain ⟨bs, hl, -⟩ := exists_bind_iff.1 h
      exact ⟨⟨b, ha⟩, bs, hl⟩
    · rintro ⟨⟨b, ha⟩, bs, hl⟩
      exact ⟨b, ha, exists_bind_iff.2 ⟨bs, hl, b :: bs, rfl⟩⟩

/-- The results of a loop are related to its elements, in their order, as those of its steps
    are. -/
theorem forall₂_of_mapM {f : α → Except ε β} {R : α → β → Prop} {l : List α} {bs : List β}
    (h : l.mapM f = .ok bs) (hR : ∀ a ∈ l, ∀ b, f a = .ok b → R a b) : List.Forall₂ R l bs := by
  obtain ⟨bs', h', hr⟩ := mapM_iff.2 fun a ha =>
    let ⟨b, hb⟩ := exists_mapM_iff.1 ⟨bs, h⟩ a ha
    ⟨b, hb, hR a ha b hb⟩
  obtain rfl := Except.ok.inj (h.symm.trans h')
  exact hr

/-- What is the same of each element and its result is the same of the lists. -/
theorem map_eq_of_mapM {γ : Type*} {f : α → Except ε β} {g : α → γ} {k : β → γ} {l : List α}
    {bs : List β} (h : l.mapM f = .ok bs) (hgk : ∀ a ∈ l, ∀ b, f a = .ok b → g a = k b) :
    l.map g = bs.map k := by
  rw [← List.forall₂_eq_eq_eq, List.forall₂_map_left_iff, List.forall₂_map_right_iff]
  exact forall₂_of_mapM h hgk

theorem exists_foldlM {f : β → α → Except ε β} {l : List α}
    (h : ∀ a ∈ l, ∀ b, ∃ b', f b a = .ok b') (b : β) : ∃ b', l.foldlM f b = .ok b' := by
  induction l generalizing b with
  | nil => exact ⟨b, rfl⟩
  | cons a l ih =>
    obtain ⟨ha, hl⟩ := List.forall_mem_cons.1 h
    obtain ⟨b', hb⟩ := ha b
    rw [List.foldlM_cons, hb]
    exact ih hl b'

end Lib.Except
