import Mathlib.Algebra.Order.Ring.Int
import Mathlib.Data.List.Induction
import Mathlib.Tactic.IntervalCases
import Mathlib.Tactic.NormNum
import Mathlib.Tactic.Ring
import Sylph.Lib.Go

/-!
# Health checks

The health checks of the RPC client of the Ethereum service: every client is asked for the
chain, after a delay that is to grow exponentially with its failures in a row, up to 30
seconds (`backoff`).

The exponential is computed in nanoseconds, on 64 bits, and only capped afterwards. Up to 33
failures it is as it is to be, and at a few counts more where it wraps around to something
large (`Bounded`, `delay_eq_iff`). In a longer outage, nothing is left of it: the client is
asked again at once (`delay_outage`).
-/

namespace Sylph.Ethereum

open Lib Go

/-! ## Checks -/

/-- `time.Duration`, in nanoseconds. -/
abbrev Duration := Int64

/-- `time.Second` -/
def second : Duration := 1000000000

/-- The delay after some failures in a row; the shift may overflow. -/
def backoff (failures : Int32) : Duration :=
  let backoff := shl 1 failures.toInt64.toUInt64 * second
  if backoff > 30 * second then 30 * second else backoff

/-- A client of an endpoint, with what is known of its health. -/
structure HealthyClient where
  endpoint : String
  isHealthy : Bool
  lastCheck : Int64
  latency : Int64
  failureCount : Int32
  successCount : Int32

/-- What a check of a client meets: the error of `ChainID`, if there is one, how long the
    call takes, and when it is over. -/
structure Probe where
  err : Option String
  latency : Int64
  now : Int64

namespace HealthyClient

/-- The delay before a client is checked, if there is one. -/
def delay (hc : HealthyClient) : Option Duration :=
  if hc.failureCount > 0 then some (backoff hc.failureCount) else none

/-- A client after its check. -/
def check (hc : HealthyClient) (p : Probe) : HealthyClient :=
  let hc := match p.err with
    | none => { hc with
        isHealthy := true, successCount := hc.successCount + 1, failureCount := 0 }
    | some _ => { hc with isHealthy := false, failureCount := hc.failureCount + 1 }
  { hc with lastCheck := p.now, latency := p.latency }

end HealthyClient

/-- The clients are checked, each in a goroutine of its own after its delay. -/
def checkClientsHealth (clients : List HealthyClient) (probe : ℕ → Probe) :
    List (Option Duration × HealthyClient) :=
  clients.mapIdx fun i hc => (hc.delay, hc.check (probe i))

/-! ## The delay -/

/-- The delay before it is capped is the exponential, as far as it wraps around. -/
theorem toInt_shl_second {failures : Int32} (h : 0 ≤ failures) :
    (shl 1 failures.toInt64.toUInt64 * second).toInt =
      (2 ^ failures.toNatClampNeg * 1000000000 : ℤ).bmod (2 ^ 64) := by
  have h₀ : 0 ≤ failures.toInt64 := by
    rw [Int64.le_iff_toInt_le, Int32.toInt_toInt64]
    exact Int32.le_iff_toInt_le.1 h
  have hs : (1 : Int64).toInt = 1 ∧ second.toInt = 1000000000 := ⟨rfl, rfl⟩
  rw [Int64.toInt_mul, toInt_shl, Int64.toNat_toUInt64_of_le h₀, Int32.toNatClampNeg_toInt64,
    hs.1, hs.2, Int.one_mul, Int.bmod_mul_bmod]

theorem toInt_backoff (failures : Int32) : (backoff failures).toInt =
    min (shl 1 failures.toInt64.toUInt64 * second).toInt 30000000000 := by
  have h30 : (30 * second).toInt = 30000000000 := rfl
  simp only [backoff]
  split_ifs with h
  · have := Int64.lt_iff_toInt_lt.1 h
    rw [h30] at this
    rw [h30]
    omega
  · have := mt Int64.lt_iff_toInt_lt.2 h
    rw [h30] at this
    omega

/-- The failure counts at which the exponential does not wrap around, or to a delay that is
    capped like it. -/
def Bounded (n : ℕ) : Prop := n ≤ 33 ∨ n ∈ [37, 41, 42, 45, 47, 50, 51, 53]

instance (n : ℕ) : Decidable (Bounded n) := inferInstanceAs (Decidable (_ ∨ _))

/-- Up to 33 failures, nothing wraps around. -/
theorem bmod_of_le {n : ℕ} (h : n ≤ 33) :
    (2 ^ n * 1000000000 : ℤ).bmod (2 ^ 64) = 2 ^ n * 1000000000 := by
  have hle : (2 : ℤ) ^ n ≤ 2 ^ 33 := pow_le_pow_right₀ (by decide) h
  have h₀ : (0 : ℤ) ≤ 2 ^ n := pow_nonneg (by decide) n
  refine Int.bmod_eq_of_le ?_ ?_ <;> norm_num <;> omega

/-- From 55 failures on, nothing remains. -/
theorem bmod_of_ge {n : ℕ} (h : 55 ≤ n) : (2 ^ n * 1000000000 : ℤ).bmod (2 ^ 64) = 0 := by
  -- The factor `2 ^ 9` of a second and `2 ^ 55` make up the width.
  refine Int.bmod_eq_zero_of_dvd ?_
  obtain ⟨k, rfl⟩ := Nat.exists_eq_add_of_le h
  exact ⟨2 ^ k * 1953125, by rw [pow_add]; push_cast; ring⟩

theorem min_bmod_iff (n : ℕ) :
    min ((2 ^ n * 1000000000 : ℤ).bmod (2 ^ 64)) 30000000000 = min (2 ^ n) 30 * 1000000000 ↔
      Bounded n := by
  rcases le_or_gt n 33 with hs | hs
  · rw [bmod_of_le hs]
    exact iff_of_true (by omega) (.inl hs)
  · rcases le_or_gt 55 n with hl | hl
    · have hpow : (2 : ℤ) ^ 55 ≤ 2 ^ n := pow_le_pow_right₀ (by decide) hl
      rw [bmod_of_ge hl]
      refine iff_of_false (by omega) ?_
      rintro (h | h)
      · omega
      · simp only [List.mem_cons, List.not_mem_nil, or_false] at h
        omega
    · interval_cases n <;> norm_num [Int.bmod, Bounded]

/-- The delay before a client is checked after failures is `2 ^ n` seconds, for the number `n`
    of failures, and 30 seconds at most, if and only if the number is one at which this does
    not wrap around badly. -/
theorem delay_eq_iff (clients : List HealthyClient) (probe : ℕ → Probe) (i : ℕ)
    (hc : HealthyClient) (hi : clients[i]? = some hc) (hf : 0 < hc.failureCount) :
    (∃ d hc', (checkClientsHealth clients probe)[i]? = some (some d, hc') ∧
      d.toInt = min (2 ^ hc.failureCount.toNatClampNeg) 30 * 1000000000) ↔
      Bounded hc.failureCount.toNatClampNeg := by
  have hd : (checkClientsHealth clients probe)[i]? =
      some (some (backoff hc.failureCount), hc.check (probe i)) := by
    rw [checkClientsHealth, List.getElem?_mapIdx, hi, Option.map_some, HealthyClient.delay,
      if_pos hf]
  rw [← min_bmod_iff, ← toInt_shl_second (Int32.le_of_lt hf), ← toInt_backoff, hd]
  constructor
  · rintro ⟨d, hc', he, h⟩
    cases he
    exact h
  · exact fun h => ⟨_, _, rfl, h⟩

/-- A client that has failed once. -/
def failedOnce : HealthyClient where
  endpoint := "http://localhost:8545"
  isHealthy := false
  lastCheck := 0
  latency := 0
  failureCount := 1
  successCount := 0

theorem delay_eq_iff_one :
    (∃ d hc', (checkClientsHealth [failedOnce] fun _ => ⟨none, 0, 0⟩)[0]? = some (some d, hc') ∧
      d.toInt = min (2 ^ (1 : Int32).toNatClampNeg) 30 * 1000000000) ↔
      Bounded (1 : Int32).toNatClampNeg :=
  delay_eq_iff [failedOnce] _ 0 failedOnce rfl (by decide)

/-- After 34 failures, the delay is negative. -/
theorem not_forall_delay_eq : ¬∀ (clients : List HealthyClient) (probe : ℕ → Probe) (i : ℕ)
    (hc : HealthyClient), clients[i]? = some hc → 0 < hc.failureCount →
      ∃ d hc', (checkClientsHealth clients probe)[i]? = some (some d, hc') ∧
        d.toInt = min (2 ^ hc.failureCount.toNatClampNeg) 30 * 1000000000 := by
  intro h
  obtain ⟨d, hc', he, hd⟩ := h [{ failedOnce with failureCount := 34 }] (fun _ => ⟨none, 0, 0⟩) 0
    { failedOnce with failureCount := 34 } rfl (by decide)
  cases he
  exact absurd hd (by decide)

/-! ## Outages -/

/-- In an outage, the failures of a client are counted. -/
theorem failureCount_outage {hc : HealthyClient} (h₀ : hc.failureCount = 0) (ps : List Probe)
    (hp : ∀ p ∈ ps, p.err ≠ none) :
    (ps.foldl HealthyClient.check hc).failureCount = .ofNat ps.length := by
  induction ps using List.reverseRecOn with
  | nil => exact h₀
  | append_singleton ps p ih =>
    rw [List.forall_mem_append, List.forall_mem_singleton] at hp
    obtain ⟨err, he⟩ := Option.ne_none_iff_exists'.1 hp.2
    rw [List.foldl_append, List.foldl_cons, List.foldl_nil, HealthyClient.check, he]
    simp only [ih hp.1, List.length_append, List.length_singleton, Int32.ofNat_add]
    rfl

/-- After 55 checks that have failed, a client is checked without any delay. -/
theorem delay_outage {hc : HealthyClient} (h₀ : hc.failureCount = 0) (ps : List Probe)
    (hp : ∀ p ∈ ps, p.err ≠ none) (hl : 55 ≤ ps.length) (hl' : ps.length < 2 ^ 31) :
    (ps.foldl HealthyClient.check hc).delay = some 0 := by
  have hn : (Int32.ofNat ps.length).toNatClampNeg = ps.length :=
    Int32.toNatClampNeg_ofNat_of_lt hl'
  have hpos : 0 < Int32.ofNat ps.length := by
    rw [Int32.lt_iff_toInt_lt, Int32.toInt_ofNat_of_lt hl', Int32.toInt_zero]
    omega
  rw [HealthyClient.delay, failureCount_outage h₀ ps hp, if_pos hpos]
  refine congrArg some (Int64.toInt_inj.1 ?_)
  rw [toInt_backoff, toInt_shl_second (Int32.le_of_lt hpos), hn, bmod_of_ge hl]
  rfl

end Sylph.Ethereum
