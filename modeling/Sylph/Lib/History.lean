import Mathlib.Data.List.Induction

/-!
# Histories

What a sequence of events, each of them about one key, leaves under every key.

* `foldl_overwrite`: if some events overwrite a value and the others leave it alone, the
  last one that overwrites it counts;
* `Keywise`: an event changes what a state shows under the key of the event, by a rule
  of its own, and nothing under the other keys. Then what is shown under a key only
  depends on the events of the key, in their order (`Keywise.view_foldl`,
  `Keywise.view_congr`), or on the last one of them (`Keywise.view_overwrite`).
-/

namespace Lib.History

variable {σ ι κ β : Type*}

/-- The events of a sequence that are about the key `k`. -/
def about [DecidableEq κ] (key : ι → κ) (k : κ) (l : List ι) : List ι :=
  l.filter fun i => key i = k

theorem mem_about_self [DecidableEq κ] (key : ι → κ) {l : List ι} {i : ι} :
    i ∈ about key (key i) l ↔ i ∈ l := by
  rw [about, List.mem_filter]
  exact and_iff_left (decide_eq_true rfl)

/-- The events act on each key separately: `view s k` is what the state `s` shows under
    the key `k`, and `upd` how an event changes it there. -/
structure Keywise (f : σ → ι → σ) (key : ι → κ) (view : σ → κ → β) (upd : β → ι → β) :
    Prop where
  same : ∀ s i, view (f s i) (key i) = upd (view s (key i)) i
  other : ∀ s i k, key i ≠ k → view (f s i) k = view s k

/-- If the events with the property `p` overwrite a value and the others leave it alone,
    the last event with the property counts. -/
theorem foldl_overwrite {upd : β → ι → β} (p : ι → Prop) [DecidablePred p] (c : ι → β)
    (hp : ∀ b i, p i → upd b i = c i) (hn : ∀ b i, ¬p i → upd b i = b) (b : β) (l : List ι) :
    l.foldl upd b = (((l.filter fun i => p i).getLast?).map c).getD b := by
  induction l using List.reverseRecOn with
  | nil => rfl
  | append_singleton l i ih =>
    rw [List.foldl_append, List.foldl_cons, List.foldl_nil, List.filter_append]
    by_cases hi : p i
    · rw [hp _ _ hi, List.filter_cons, if_pos (decide_eq_true hi), List.filter_nil,
        List.getLast?_concat]
      rfl
    · rw [hn _ _ hi, ih, List.filter_cons, if_neg (by simpa using hi), List.filter_nil,
        List.append_nil]

namespace Keywise

variable {f : σ → ι → σ} {key : ι → κ} {view : σ → κ → β} {upd : β → ι → β} [DecidableEq κ]

/-- What is shown under a key is what its own events make of it. -/
theorem view_foldl (h : Keywise f key view upd) (s : σ) (l : List ι) (k : κ) :
    view (l.foldl f s) k = (about key k l).foldl upd (view s k) := by
  induction l generalizing s with
  | nil => rfl
  | cons i l ih =>
    rw [List.foldl_cons, ih (f s i), about, about, List.filter_cons]
    by_cases hk : key i = k
    · rw [if_pos (decide_eq_true hk), List.foldl_cons, ← hk, h.same]
    · rw [if_neg (by simpa using hk), h.other s i k hk]

/-- Two sequences with the same events of a key, in the same order, show the same under it. -/
theorem view_congr (h : Keywise f key view upd) (s : σ) {l l' : List ι} {k : κ}
    (hl : about key k l = about key k l') : view (l.foldl f s) k = view (l'.foldl f s) k := by
  rw [h.view_foldl, h.view_foldl, hl]

/-- If the events with the property `p` overwrite what is shown under their key and the
    others leave it alone, the last event of a key with the property counts. -/
theorem view_overwrite (h : Keywise f key view upd) (p : ι → Prop) [DecidablePred p] (c : ι → β)
    (hp : ∀ b i, p i → upd b i = c i) (hn : ∀ b i, ¬p i → upd b i = b) (s : σ) (l : List ι)
    (k : κ) : view (l.foldl f s) k =
      (((l.filter fun i => key i = k ∧ p i).getLast?).map c).getD (view s k) := by
  have hf : ((about key k l).filter fun i => p i) = l.filter fun i => key i = k ∧ p i := by
    rw [about, List.filter_filter]
    exact List.filter_congr fun i _ => by rw [Bool.decide_and, Bool.and_comm]
  rw [h.view_foldl, foldl_overwrite p c hp hn, hf]

end Keywise

end Lib.History
