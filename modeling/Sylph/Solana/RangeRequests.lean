import Sylph.Lib.Rust
import Sylph.Solana.Client

/-!
# Requests for ranges

The checks the service of a Solana chain makes of a request for a range of slots
(`getBlockRange`), before it starts a task that asks the node for the blocks in the range.

`checks_iff`: of the ranges that begin at a slot, those of more than 1001 slots and those that
end before they begin are refused, and the others accepted, with these slots. But a range that
begins before slot `0` is accepted as well, if it is not too large, as slots at the other end of
the unsigned numbers; and the size of the largest of them overflows.
-/

namespace Sylph.Solana

open Lib Rust

/-- A request for the blocks of a range, ends included. -/
structure GetBlockRangeRequest where
  startSlot : Int64
  endSlot : Int64

/-- The code of a status that is used here. -/
inductive Code
  | invalidArgument

/-- A status of gRPC. -/
structure Status where
  code : Code
  message : String

/-- The arguments of `SolanaRpcClient::get_blocks`. -/
structure GetBlocks where
  startSlot : UInt64
  endSlot : Option UInt64

/-- `MAX_RANGE` -/
def maxRange : Int64 := 1000

/-- The answer to a request, unless the handler panics: a status, or the stream that a task is
    to fill, with what the task asks for. -/
def getBlockRange (profile : Profile) (req : GetBlockRangeRequest) :
    Option (Except Status GetBlocks) :=
  if req.startSlot > req.endSlot then
    some (.error ⟨.invalidArgument, "start_slot must be less than or equal to end_slot"⟩)
  else
    (sub profile req.endSlot req.startSlot).map fun size =>
      if size > maxRange then
        .error ⟨.invalidArgument, "slot range too large, maximum is " ++ toString maxRange⟩
      else
        .ok ⟨req.startSlot.toUInt64, some req.endSlot.toUInt64⟩

/-- The ranges that are to be accepted. -/
def GetBlockRangeRequest.Valid (req : GetBlockRangeRequest) : Prop :=
  0 ≤ req.startSlot.toInt ∧ req.startSlot.toInt ≤ req.endSlot.toInt ∧
    req.endSlot.toInt - req.startSlot.toInt ≤ 1000

/-- A request is checked without an overflow; it is accepted with the slots it is for if it is
    valid, and refused as an invalid argument if not. -/
structure Checks (profile : Profile) (req : GetBlockRangeRequest) : Prop where
  fits : req.startSlot ≤ req.endSlot → SubFits req.endSlot req.startSlot
  accepts : req.Valid → ∃ startSlot endSlot : UInt64,
    getBlockRange profile req = some (.ok ⟨startSlot, some endSlot⟩) ∧
      (startSlot.toNat : ℤ) = req.startSlot.toInt ∧ (endSlot.toNat : ℤ) = req.endSlot.toInt
  refuses : ¬req.Valid → ∃ message,
    getBlockRange profile req = some (.error ⟨.invalidArgument, message⟩)

variable {profile : Profile} {req : GetBlockRangeRequest}

theorem getBlockRange_of_gt (h : req.endSlot < req.startSlot) : ∃ message,
    getBlockRange profile req = some (.error ⟨.invalidArgument, message⟩) :=
  ⟨_, if_pos h⟩

/-- The answer to a request whose size does not overflow. -/
theorem getBlockRange_of_fits (profile : Profile) (h : req.startSlot ≤ req.endSlot)
    (hf : SubFits req.endSlot req.startSlot) : ∃ message, getBlockRange profile req = some
      (if 1000 < req.endSlot.toInt - req.startSlot.toInt then .error ⟨.invalidArgument, message⟩
        else .ok ⟨req.startSlot.toUInt64, some req.endSlot.toUInt64⟩) := by
  obtain ⟨size, hs, hsize⟩ := sub_of_fits hf profile
  refine ⟨"slot range too large, maximum is " ++ toString maxRange, ?_⟩
  rw [getBlockRange, if_neg (Int64.not_lt.2 h), hs, Option.map_some]
  have hmax : maxRange.toInt = 1000 := rfl
  simp only [gt_iff_lt, Int64.lt_iff_toInt_lt, hsize, hmax]

theorem getBlockRange_of_small (profile : Profile) (h : req.startSlot ≤ req.endSlot)
    (hf : SubFits req.endSlot req.startSlot)
    (hsmall : req.endSlot.toInt - req.startSlot.toInt ≤ 1000) :
    getBlockRange profile req = some (.ok ⟨req.startSlot.toUInt64, some req.endSlot.toUInt64⟩) := by
  obtain ⟨message, hr⟩ := getBlockRange_of_fits profile h hf
  rwa [if_neg (Int.not_lt.2 hsmall)] at hr

theorem getBlockRange_of_large (profile : Profile) (h : req.startSlot ≤ req.endSlot)
    (hf : SubFits req.endSlot req.startSlot)
    (hlarge : 1000 < req.endSlot.toInt - req.startSlot.toInt) : ∃ message,
    getBlockRange profile req = some (.error ⟨.invalidArgument, message⟩) := by
  obtain ⟨message, hr⟩ := getBlockRange_of_fits profile h hf
  rw [if_pos hlarge] at hr
  exact ⟨message, hr⟩

theorem toNat_toUInt64 {a : Int64} (h : 0 ≤ a.toInt) : (a.toUInt64.toNat : ℤ) = a.toInt := by
  rw [Int64.toNat_toUInt64_of_le (Int64.le_iff_toInt_le.2 h)]
  exact Int.toNat_of_nonneg h

/-- The slots of a valid request are kept. -/
theorem GetBlockRangeRequest.Valid.accepted (profile : Profile) (hv : req.Valid)
    (hf : SubFits req.endSlot req.startSlot) : ∃ startSlot endSlot : UInt64,
    getBlockRange profile req = some (.ok ⟨startSlot, some endSlot⟩) ∧
      (startSlot.toNat : ℤ) = req.startSlot.toInt ∧ (endSlot.toNat : ℤ) = req.endSlot.toInt := by
  obtain ⟨h₀, hle, hsize⟩ := hv
  refine ⟨_, _, getBlockRange_of_small profile (Int64.le_iff_toInt_le.2 hle) hf hsize, ?_, ?_⟩
  · exact toNat_toUInt64 h₀
  · exact toNat_toUInt64 (Int.le_trans h₀ hle)

/-- The range begins at a slot, or ends before it begins, or is too large, but not so large that
    its size overflows. -/
def GetBlockRangeRequest.Checkable (req : GetBlockRangeRequest) : Prop :=
  0 ≤ req.startSlot.toInt ∨ req.endSlot.toInt < req.startSlot.toInt ∨
    1000 < req.endSlot.toInt - req.startSlot.toInt ∧
      req.endSlot.toInt - req.startSlot.toInt < 2 ^ 63

namespace GetBlockRangeRequest.Checkable

theorem fits (h : req.Checkable) (hle : req.startSlot ≤ req.endSlot) :
    SubFits req.endSlot req.startSlot := by
  rw [Int64.le_iff_toInt_le] at hle
  have hs := req.startSlot.le_toInt
  have he := req.endSlot.toInt_lt
  rw [Checkable] at h
  constructor <;> omega

theorem refused (profile : Profile) (h : req.Checkable) (hv : ¬req.Valid) : ∃ message,
    getBlockRange profile req = some (.error ⟨.invalidArgument, message⟩) := by
  rcases Int.lt_or_le req.endSlot.toInt req.startSlot.toInt with hgt | hle
  · exact getBlockRange_of_gt (Int64.lt_iff_toInt_lt.2 hgt)
  · have hle' := Int64.le_iff_toInt_le.2 hle
    refine getBlockRange_of_large profile hle' (h.fits hle') ?_
    by_contra hsmall
    -- The range begins at a slot, so it is valid.
    refine hv ⟨?_, hle, Int.not_lt.1 hsmall⟩
    rcases h with h | h | h
    · exact h
    · exact absurd hle (Int.not_le.2 h)
    · exact absurd h.1 hsmall

end GetBlockRangeRequest.Checkable

/-- The checks are as they are to be if and only if the range begins at a slot, or ends before
    it begins, or is too large but not so large that its size overflows. -/
theorem checks_iff (profile : Profile) (req : GetBlockRangeRequest) : Checks profile req ↔
    0 ≤ req.startSlot.toInt ∨ req.endSlot.toInt < req.startSlot.toInt ∨
      1000 < req.endSlot.toInt - req.startSlot.toInt ∧
        req.endSlot.toInt - req.startSlot.toInt < 2 ^ 63 := by
  change Checks profile req ↔ req.Checkable
  constructor
  · rintro ⟨hfits, -, hrefuses⟩
    by_contra hn
    rw [GetBlockRangeRequest.Checkable, not_or, not_or, Int.not_le, Int.not_lt] at hn
    obtain ⟨hneg, hle, hsize⟩ := hn
    have hle' : req.startSlot ≤ req.endSlot := Int64.le_iff_toInt_le.2 hle
    have hf := hfits hle'
    have hsmall := Int.not_lt.1 fun h => hsize ⟨h, hf.2⟩
    -- The request is accepted, although it begins before slot `0`.
    obtain ⟨message, hr⟩ := hrefuses fun hv => Int.not_le.2 hneg hv.1
    rw [getBlockRange_of_small profile hle' hf hsmall] at hr
    cases hr
  · intro h
    refine ⟨h.fits, fun hv => ?_, h.refused profile⟩
    exact hv.accepted profile (h.fits (Int64.le_iff_toInt_le.2 hv.2.1))

/-- A range of six slots that begins before slot `0` is accepted. -/
theorem not_forall_checks : ¬∀ (profile : Profile) (req : GetBlockRangeRequest),
    Checks profile req := by
  intro h
  obtain ⟨message, hr⟩ := (h .release ⟨-5, 0⟩).refuses fun hv => absurd hv.1 (by decide)
  cases hr

end Sylph.Solana
