import Sylph.Solana.Parser

/-!
# The mints of collectibles

`isNftMint` reads the first balance of a mint.

* `find?_any_perm_iff`: what is found first in a list has a property in every order of the
  list, or in none, if and only if all that may be found has, or nothing.
* `isNftMint_perm_iff`: the balances of a mint may be read in any order if and only if they
  have decimals, or agree about whether they are of one token.
-/

namespace Sylph.Solana

/-! ## Searching -/

section

variable {α : Type} {p q : α → Bool} {l : List α}

/-- What is found first has the property that all that may be found agree about. -/
theorem any_find?_of_mem (h : ∀ a ∈ l, ∀ b ∈ l, p a = true → p b = true → q a = q b) {a : α}
    (ha : a ∈ l) (hp : p a = true) : (l.find? p).any q = q a := by
  rcases hf : l.find? p with _ | b
  · exact absurd hp (List.find?_eq_none.1 hf a ha)
  · exact h b (List.mem_of_find?_eq_some hf) a ha (List.find?_some hf) hp

/-- What is found first has a property whatever the order of the list, or never, if and only
    if all that may be found agree about the property. -/
theorem find?_any_perm_iff :
    (∀ l' : List α, l'.Perm l → (l'.find? p).any q = (l.find? p).any q) ↔
      ∀ a ∈ l, ∀ b ∈ l, p a = true → p b = true → q a = q b := by
  constructor
  · -- Each of two elements may come first.
    have hfirst : ∀ a ∈ l, p a = true →
        (∀ l' : List α, l'.Perm l → (l'.find? p).any q = (l.find? p).any q) →
          q a = (l.find? p).any q := by
      intro a ha hp h
      obtain ⟨l₁, l₂, rfl⟩ := List.append_of_mem ha
      have hperm := h (a :: (l₁ ++ l₂)) List.perm_middle.symm
      rw [List.find?_cons_of_pos hp] at hperm
      exact hperm
    intro h a ha b hb hpa hpb
    rw [hfirst a ha hpa h, hfirst b hb hpb h]
  · intro h l' hperm
    rcases hf : l.find? p with _ | a
    · have hf' : l'.find? p = none := List.find?_eq_none.2 fun b hb =>
        List.find?_eq_none.1 hf b (hperm.mem_iff.1 hb)
      rw [hf']
    · have ha := List.mem_of_find?_eq_some hf
      exact any_find?_of_mem (fun a ha b hb => h a (hperm.mem_iff.1 ha) b (hperm.mem_iff.1 hb))
        (hperm.mem_iff.2 ha) (List.find?_some hf)

end

/-! ## Balances -/

variable {mint : String} {balances : List UiTransactionTokenBalance}

/-- The balance of a collectible: no decimals, and one token. -/
def IsSingle (b : UiTransactionTokenBalance) : Bool :=
  b.uiTokenAmount.decimals == 0 && b.uiTokenAmount.amount == "1"

theorem isNftMint_some (mint : String) (balances : List UiTransactionTokenBalance) :
    isNftMint mint (some balances) = (balances.find? fun b => b.mint = mint).any IsSingle := by
  rw [isNftMint, Option.bind_some]
  generalize balances.find? (fun b => decide (b.mint = mint)) = found
  cases found <;> rfl

theorem isSingle_iff {b : UiTransactionTokenBalance} :
    IsSingle b = true ↔ b.uiTokenAmount.decimals = 0 ∧ b.uiTokenAmount.amount = "1" := by
  rw [IsSingle, Bool.and_eq_true, beq_iff_eq, beq_iff_eq]

/-- If the balances of a mint have the same decimals, they may be read in any order if and
    only if they have some, or agree about whether they are of one token. -/
theorem isNftMint_perm_iff (hdec : ∀ b ∈ balances, ∀ b' ∈ balances, b.mint = mint →
      b'.mint = mint → b.uiTokenAmount.decimals = b'.uiTokenAmount.decimals) :
    (∀ balances', balances'.Perm balances →
        isNftMint mint (some balances') = isNftMint mint (some balances)) ↔
      (∀ b ∈ balances, b.mint = mint → b.uiTokenAmount.decimals ≠ 0) ∨
        ∀ b ∈ balances, ∀ b' ∈ balances, b.mint = mint → b'.mint = mint →
          (b.uiTokenAmount.amount = "1" ↔ b'.uiTokenAmount.amount = "1") := by
  simp only [isNftMint_some]
  rw [find?_any_perm_iff]
  simp only [decide_eq_true_eq]
  constructor
  · intro h
    by_cases hz : ∀ b ∈ balances, b.mint = mint → b.uiTokenAmount.decimals ≠ 0
    · exact .inl hz
    · -- One balance of the mint has no decimals: none has.
      push Not at hz
      obtain ⟨c, hc, hcm, hcz⟩ := hz
      refine .inr fun b hb b' hb' hm hm' => ?_
      have hbz := (hdec b hb c hc hm hcm).trans hcz
      have hbz' := (hdec b' hb' c hc hm' hcm).trans hcz
      have hbb := Bool.eq_iff_iff.1 (h b hb b' hb' hm hm')
      rwa [isSingle_iff, isSingle_iff, and_iff_right hbz, and_iff_right hbz'] at hbb
  · intro h b hb b' hb' hm hm'
    rw [Bool.eq_iff_iff, isSingle_iff, isSingle_iff]
    rcases h with hz | hone
    · exact iff_of_false (fun h => hz b hb hm h.1) fun h => hz b' hb' hm' h.1
    · rw [hdec b hb b' hb' hm hm', hone b hb b' hb' hm hm']

/-- The balance of an account, of a mint without decimals. -/
def balanceOf (accountIndex : UInt8) (mint amount : String) : UiTransactionTokenBalance :=
  ⟨accountIndex, mint, ⟨0, amount⟩⟩

theorem decimals_balanceOf {mint amount amount' : String} :
    ∀ b ∈ [balanceOf 1 mint amount, balanceOf 2 mint amount'],
      ∀ b' ∈ [balanceOf 1 mint amount, balanceOf 2 mint amount'], b.mint = mint →
        b'.mint = mint → b.uiTokenAmount.decimals = b'.uiTokenAmount.decimals := by
  intro b hb b' hb' _ _
  rcases List.mem_pair.1 hb with rfl | rfl <;> rcases List.mem_pair.1 hb' with rfl | rfl <;> rfl

/-- Two accounts with two tokens each. -/
theorem isNftMint_perm_two :
    (∀ balances', balances'.Perm [balanceOf 1 "mint" "2", balanceOf 2 "mint" "2"] →
        isNftMint "mint" (some balances') =
          isNftMint "mint" (some [balanceOf 1 "mint" "2", balanceOf 2 "mint" "2"])) ↔
      (∀ b ∈ [balanceOf 1 "mint" "2", balanceOf 2 "mint" "2"], b.mint = "mint" →
          b.uiTokenAmount.decimals ≠ 0) ∨
        ∀ b ∈ [balanceOf 1 "mint" "2", balanceOf 2 "mint" "2"],
          ∀ b' ∈ [balanceOf 1 "mint" "2", balanceOf 2 "mint" "2"], b.mint = "mint" →
            b'.mint = "mint" → (b.uiTokenAmount.amount = "1" ↔ b'.uiTokenAmount.amount = "1") :=
  isNftMint_perm_iff decimals_balanceOf

/-- The sender of a collectible has one, the receiver none: it is one if the sender is listed
    first. -/
theorem not_forall_isNftMint_perm : ¬∀ (mint : String) (balances : List UiTransactionTokenBalance),
    (∀ b ∈ balances, ∀ b' ∈ balances, b.mint = mint → b'.mint = mint →
      b.uiTokenAmount.decimals = b'.uiTokenAmount.decimals) →
    ∀ balances', balances'.Perm balances →
      isNftMint mint (some balances') = isNftMint mint (some balances) := by
  intro h
  have hsame := h "mint" [balanceOf 1 "mint" "1", balanceOf 2 "mint" "0"] decimals_balanceOf
    [balanceOf 2 "mint" "0", balanceOf 1 "mint" "1"] (.swap _ _ [])
  exact absurd hsame (by decide)

end Sylph.Solana
