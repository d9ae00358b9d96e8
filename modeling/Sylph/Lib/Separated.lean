import Mathlib.Data.List.DropRight

/-!
# Separated fields

A list as a sequence of fields, between separators: without the blanks around them, and without
those that are empty (`fields`). What it consists of does not matter; a text is a list of
characters.

* `IsField`: what a field may be: not empty, without a separator, and not blank at its ends.
* `fields_intercalate`, `isField_of_mem_fields`: joining fields is a right inverse of reading
  them, and nothing else is ever read.
-/

namespace Lib.Separated

variable {α : Type*} {sep : α} {space : α → Bool}

/-- A list without the blanks at its ends. -/
def trim (space : α → Bool) (l : List α) : List α := (l.dropWhile space).rdropWhile space

/-- Nothing is trimmed where the ends are not blank. -/
theorem trim_eq_self {l : List α} (hh : ∀ a, l.head? = some a → space a = false)
    (hl : ∀ a, l.getLast? = some a → space a = false) : trim space l = l := by
  have hd : l.dropWhile space = l := by
    rcases l with _ | ⟨a, l⟩
    · rfl
    · rw [List.dropWhile_cons_of_neg (by rw [hh a rfl]; exact Bool.false_ne_true)]
  rw [trim, hd, List.rdropWhile_eq_self_iff]
  intro hne
  rw [hl _ (List.getLast?_eq_some_getLast hne)]
  exact Bool.false_ne_true

/-- What is trimmed is trimmed. -/
theorem trim_trim (l : List α) : trim space (trim space l) = trim space l := by
  refine trim_eq_self (fun a ha => ?_) fun a ha => ?_
  · -- What is left begins where the list without the blanks before it begins.
    obtain ⟨t, ht⟩ := List.rdropWhile_prefix space (l := l.dropWhile space)
    obtain ⟨rest, hrest⟩ := List.head?_eq_some_iff.1 ha
    rw [trim] at hrest
    rw [hrest, List.cons_append] at ht
    have hhead : (l.dropWhile space).head? = some a := by rw [← ht]; rfl
    have hne : l.dropWhile space ≠ [] := by rw [← ht]; exact List.cons_ne_nil _ _
    have hnot := List.head_dropWhile_not space hne
    rw [List.head?_eq_some_head hne] at hhead
    rwa [Option.some_inj.1 hhead] at hnot
  · have hne : (l.dropWhile space).rdropWhile space ≠ [] := by
      intro h
      rw [trim, h] at ha
      exact absurd ha.symm (Option.some_ne_none a)
    have := List.rdropWhile_last_not space _ hne
    rw [trim, List.getLast?_eq_some_getLast hne] at ha
    rw [Option.some_inj.1 ha] at this
    exact Bool.not_eq_true _ ▸ this

theorem mem_of_mem_trim {l : List α} {a : α} (h : a ∈ trim space l) : a ∈ l :=
  (List.dropWhile_suffix space).subset ((List.rdropWhile_prefix space _).subset h)

variable [DecidableEq α]

/-- The fields of a list. -/
def fields (sep : α) (space : α → Bool) (l : List α) : List (List α) :=
  ((l.splitOn sep).map (trim space)).filter fun w => !w.isEmpty

/-- What a field may be. -/
structure IsField (sep : α) (space : α → Bool) (w : List α) : Prop where
  ne_nil : w ≠ []
  not_mem : sep ∉ w
  trim : trim space w = w

/-- The parts of a list do not contain what it has been divided at. -/
theorem not_mem_of_mem_splitOn {l w : List α} (h : w ∈ l.splitOn sep) : sep ∉ w := by
  induction l generalizing w with
  | nil =>
    rw [List.splitOn_nil, List.mem_singleton] at h
    rw [h]
    exact List.not_mem_nil
  | cons a l ih =>
    rw [List.splitOn_cons_eq_if_modifyHead] at h
    split_ifs at h with ha
    · rcases List.mem_cons.1 h with rfl | h
      · exact List.not_mem_nil
      · exact ih h
    · obtain ⟨v, vs, hv⟩ := List.exists_cons_of_ne_nil (List.splitOn_ne_nil sep l)
      rw [hv, List.modifyHead_cons] at h
      rw [hv] at ih
      rcases List.mem_cons.1 h with rfl | h
      · intro hm
        rcases List.mem_cons.1 hm with rfl | hm
        · exact ha (beq_self_eq_true sep)
        · exact ih List.mem_cons_self hm
      · exact ih (List.mem_cons_of_mem v h)

theorem isField_of_mem_fields {l w : List α} (h : w ∈ fields sep space l) :
    IsField sep space w := by
  obtain ⟨hm, hne⟩ := List.mem_filter.1 h
  obtain ⟨v, hv, rfl⟩ := List.mem_map.1 hm
  exact ⟨by simpa using hne, fun hs => not_mem_of_mem_splitOn hv (mem_of_mem_trim hs),
    trim_trim v⟩

/-- Fields that are joined are read as they are. -/
theorem fields_intercalate {ws : List (List α)} (h : ∀ w ∈ ws, IsField sep space w) :
    fields sep space ([sep].intercalate ws) = ws := by
  by_cases hne : ws = []
  · rw [hne]
    rfl
  have hmap : ws.map (trim space) = ws := by
    conv_rhs => rw [← List.map_id ws]
    exact List.map_congr_left fun w hw => (h w hw).trim
  rw [fields, List.splitOn_intercalate sep (fun w hw => (h w hw).not_mem) hne, hmap]
  exact List.filter_eq_self.2 fun w hw => by simpa using (h w hw).ne_nil

end Lib.Separated
