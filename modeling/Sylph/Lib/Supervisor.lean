import Mathlib.Data.List.Induction
import Mathlib.Data.List.Perm.Subperm
import Mathlib.Data.List.TakeWhile

/-!
# Supervisors

How often a supervisor restarts its children: it keeps the times of the restarts, and terminates
itself when there are more of them than its intensity within its period (`addRestart`).

* `Sparse`: times no more of which are within a period than the intensity.
* `endures_iff`: a supervisor endures restarts at some times if and only if these are sparse.
* `sparse_of_kinds`: so they are if there are few kinds of them, each of them rare.
-/

namespace Lib.Supervisor

/-- How many restarts there may be within a period. -/
structure Limit where
  intensity : ℕ
  /-- In seconds. -/
  period : ℕ

/-- `max_restarts: 3, max_seconds: 5` -/
def Limit.default : Limit := ⟨3, 5⟩

/-- The restarts, the last one first, that are in the period. -/
def recent (limit : Limit) (now : ℕ) (restarts : List ℕ) : List ℕ :=
  restarts.takeWhile fun t => now ≤ t + limit.period

/-- A restart: the ones to be kept, unless the supervisor terminates. -/
def addRestart (limit : Limit) (now : ℕ) (restarts : List ℕ) : Option (List ℕ) :=
  let restarts := recent limit now (now :: restarts)
  if restarts.length ≤ limit.intensity then some restarts else none

/-- Restarts, in their order. -/
def addRestarts (limit : Limit) (ts : List ℕ) : Option (List ℕ) :=
  ts.foldlM (fun restarts now => addRestart limit now restarts) []

/-- The supervisor does not terminate. -/
def Endures (limit : Limit) (ts : List ℕ) : Prop := (addRestarts limit ts).isSome = true

instance (limit : Limit) : DecidablePred (Endures limit) :=
  fun ts => inferInstanceAs (Decidable ((addRestarts limit ts).isSome = true))

/-- No more than as many of the times as the intensity are within a period. -/
def Sparse (limit : Limit) (ts : List ℕ) : Prop :=
  ∀ i t t', ts[i]? = some t → ts[i + limit.intensity]? = some t' → t + limit.period < t'

variable {limit : Limit} {now now' : ℕ} {ts restarts : List ℕ}

/-- A list is cut within `n` elements where a property that does not come back is lost. -/
theorem length_takeWhile_le_iff {α : Type*} {p : α → Bool} {l : List α}
    (h : l.Pairwise fun a b => p b → p a) {n : ℕ} :
    (l.takeWhile p).length ≤ n ↔ ∀ a, l[n]? = some a → p a = false := by
  induction l generalizing n with
  | nil => simp
  | cons a l ih =>
    obtain ⟨ha, hl⟩ := List.pairwise_cons.1 h
    rw [List.takeWhile_cons]
    cases hp : p a with
    | false =>
      refine iff_of_true (Nat.zero_le n) fun b hb => ?_
      rcases n with _ | n
      · exact Option.some_inj.1 hb ▸ hp
      · have hmem : b ∈ l := List.mem_of_getElem? hb
        exact Bool.eq_false_iff.2 fun hpb => Bool.eq_false_iff.1 hp (ha b hmem hpb)
    | true =>
      rcases n with _ | n
      · simp [hp]
      · rw [if_pos rfl, List.length_cons, Nat.succ_le_succ_iff, ih hl, List.getElem?_cons_succ]

/-- What was in the period once is kept as long as it may be in it again. -/
theorem recent_recent (h : now ≤ now') (restarts : List ℕ) :
    recent limit now' (recent limit now restarts) = recent limit now' restarts := by
  rw [recent, recent, List.takeWhile_takeWhile, recent]
  congr 1
  funext t
  rw [decide_eq_decide, decide_eq_true_eq, decide_eq_true_eq]
  omega

theorem recent_cons_self (now : ℕ) (restarts : List ℕ) :
    recent limit now (now :: restarts) = now :: recent limit now restarts :=
  List.takeWhile_cons_of_pos (decide_eq_true (Nat.le_add_right _ _))

/-- As many restarts as the intensity, before the last one, are not within its period. -/
theorem length_recent_le_iff (hs : (ts ++ [now]).Pairwise (· ≤ ·)) :
    (recent limit now (now :: ts.reverse)).length ≤ limit.intensity ↔
      ∀ t, (now :: ts.reverse)[limit.intensity]? = some t → t + limit.period < now := by
  have hr : (now :: ts.reverse).Pairwise fun a b => b ≤ a := by
    rw [← List.reverse_concat]
    exact List.pairwise_reverse.2 hs
  rw [recent, length_takeWhile_le_iff (hr.imp fun hba hb => ?_)]
  · simp only [decide_eq_false_iff_not, Nat.not_le]
  · rw [decide_eq_true_eq] at hb ⊢
    omega

theorem sparse_concat : Sparse limit (ts ++ [now]) ↔ Sparse limit ts ∧
    ∀ t, (now :: ts.reverse)[limit.intensity]? = some t → t + limit.period < now := by
  have hrev : now :: ts.reverse = (ts ++ [now]).reverse := (List.reverse_concat ..).symm
  have hlen : (ts ++ [now]).length = ts.length + 1 := by simp
  constructor
  · intro h
    constructor
    · intro i t t' ht ht'
      refine h i t t' ?_ ?_
      · rw [List.getElem?_append_left (List.getElem?_eq_some_iff.1 ht).1, ht]
      · rw [List.getElem?_append_left (List.getElem?_eq_some_iff.1 ht').1, ht']
    · intro t ht
      rw [hrev] at ht
      have hi : limit.intensity < ts.length + 1 := by
        have := (List.getElem?_eq_some_iff.1 ht).1
        rwa [List.length_reverse, hlen] at this
      rw [List.getElem?_reverse (hlen ▸ hi), hlen] at ht
      refine h (ts.length + 1 - 1 - limit.intensity) t now ht ?_
      have hidx : ts.length + 1 - 1 - limit.intensity + limit.intensity = ts.length := by omega
      rw [hidx]
      exact List.getElem?_concat_length
  · rintro ⟨h, hlast⟩ i t t' ht ht'
    have hi := (List.getElem?_eq_some_iff.1 ht').1
    rw [hlen] at hi
    rcases Nat.lt_succ_iff_lt_or_eq.1 hi with hi | hi
    · rw [List.getElem?_append_left hi] at ht'
      rw [List.getElem?_append_left (Nat.lt_of_le_of_lt (Nat.le_add_right _ _) hi)] at ht
      exact h i t t' ht ht'
    · rw [hi, List.getElem?_concat_length] at ht'
      obtain rfl := Option.some_inj.1 ht'
      refine hlast t ?_
      rw [hrev, List.getElem?_reverse (by omega), hlen]
      have hidx : ts.length + 1 - 1 - limit.intensity = i := by omega
      rw [hidx, ht]

theorem addRestarts_concat (limit : Limit) (ts : List ℕ) (now : ℕ) :
    addRestarts limit (ts ++ [now]) = (addRestarts limit ts).bind (addRestart limit now) := by
  rw [addRestarts, List.foldlM_append, ← addRestarts]
  cases addRestarts limit ts with
  | none => rfl
  | some restarts => exact bind_pure (addRestart limit now restarts)

/-- Either the times are sparse, and the restarts are kept as far as they count, or the supervisor
    has terminated. -/
theorem addRestarts_cases (limit : Limit) (hs : ts.Pairwise (· ≤ ·)) :
    (Sparse limit ts ∧ ∃ restarts, addRestarts limit ts = some restarts ∧
      ∀ now, (∀ t ∈ ts, t ≤ now) → recent limit now restarts = recent limit now ts.reverse) ∨
    (¬Sparse limit ts ∧ addRestarts limit ts = none) := by
  induction ts using List.reverseRecOn with
  | nil => exact Or.inl ⟨nofun, [], rfl, fun _ _ => rfl⟩
  | append_singleton ts now ih =>
    obtain ⟨hts, -, hlast⟩ := List.pairwise_append.1 hs
    have hle : ∀ t ∈ ts, t ≤ now := fun t ht => hlast t ht now List.mem_cons_self
    rw [sparse_concat, addRestarts_concat]
    rcases ih hts with ⟨hsp, restarts, he, hrec⟩ | ⟨hsp, he⟩
    · have hnow : recent limit now (now :: restarts) = recent limit now (now :: ts.reverse) := by
        rw [recent_cons_self, recent_cons_self, hrec now hle]
      rw [he, Option.bind_some, addRestart, hnow]
      by_cases hlen : (recent limit now (now :: ts.reverse)).length ≤ limit.intensity
      · refine Or.inl ⟨⟨hsp, (length_recent_le_iff hs).1 hlen⟩, _, if_pos hlen, fun now' hle' => ?_⟩
        have hge : now ≤ now' := hle' now List.mem_concat_self
        rw [recent_recent hge, List.reverse_concat]
      · exact Or.inr ⟨fun h => hlen ((length_recent_le_iff hs).2 h.2), if_neg hlen⟩
    · exact Or.inr ⟨fun h => hsp h.1, by rw [he, Option.bind_none]⟩

/-- A supervisor endures restarts at some times if and only if these are sparse. -/
theorem endures_iff (hs : ts.Pairwise (· ≤ ·)) : Endures limit ts ↔ Sparse limit ts := by
  rw [Endures]
  rcases addRestarts_cases limit hs with ⟨hsp, restarts, he, -⟩ | ⟨hsp, he⟩
  · exact iff_of_true (he ▸ rfl) hsp
  · refine iff_of_false (fun h => ?_) hsp
    rw [he] at h
    cases h

/-- Times in their order are sparse if each has one of as many kinds as the intensity, and those of
    a kind are not within a period. -/
theorem sparse_of_kinds {κ : Type*} {es : List (κ × ℕ)} {kinds : List κ}
    (hk : ∀ e ∈ es, e.1 ∈ kinds) (hlen : kinds.length ≤ limit.intensity)
    (hs : es.Pairwise fun a b => a.2 ≤ b.2)
    (hd : es.Pairwise fun a b => a.1 = b.1 → a.2 + limit.period < b.2) :
    Sparse limit (es.map Prod.snd) := by
  intro i t t' ht ht'
  obtain ⟨hi, rfl⟩ := List.getElem?_eq_some_iff.1 ht
  obtain ⟨hi', rfl⟩ := List.getElem?_eq_some_iff.1 ht'
  rw [List.length_map] at hi hi'
  rw [List.getElem_map, List.getElem_map]
  by_contra hcon
  -- Otherwise, all of the times in between are within a period, so that no kind occurs twice.
  have hle : ∀ a b (ha : a ≤ b) (hb : b < es.length), es[a].2 ≤ es[b].2 := fun a b ha hb => by
    rcases Nat.lt_or_eq_of_le ha with ha | rfl
    · exact List.pairwise_iff_getElem.1 hs a b _ hb ha
    · exact Nat.le_refl _
  have hnd : (((es.drop i).take (limit.intensity + 1)).map Prod.fst).Nodup := by
    refine List.pairwise_iff_getElem.2 fun a b ha hb hab he => ?_
    simp only [List.length_map, List.length_take, List.length_drop] at ha hb
    simp only [List.getElem_map, List.getElem_take, List.getElem_drop] at he
    have hlt := List.pairwise_iff_getElem.1 hd (i + a) (i + b) (by omega) (by omega) (by omega) he
    have hfirst := hle i (i + a) (by omega) (by omega)
    have hlast := hle (i + b) (i + limit.intensity) (by omega) hi'
    omega
  have hsub : ((es.drop i).take (limit.intensity + 1)).map Prod.fst ⊆ kinds := fun k hmem => by
    obtain ⟨e, he, rfl⟩ := List.mem_map.1 hmem
    exact hk e (List.mem_of_mem_drop (List.mem_of_mem_take he))
  have hcard := (List.subperm_of_subset hnd hsub).length_le
  simp only [List.length_map, List.length_take, List.length_drop] at hcard
  omega

end Lib.Supervisor
