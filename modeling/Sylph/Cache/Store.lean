import Mathlib.Data.List.Induction
import Mathlib.Logic.Function.Basic
import Sylph.DataProcessor.Basic

/-!
# The cache store

`Core.Cache.Store`: the operations on a cache, each with its telemetry event.

* `Cachex`: the package that keeps the values, with what is documented of it: a value that
  is put is kept under its key, and `fetch` stores what its fallback returns for a key
  without a value.
* `get` reads with `fetch`, whose fallback answers that there is no value. This answer is
  then stored, and the next read finds it.
* `Spec.step`: what the cache is meant to do, as a map, which reads do not change; and which
  keys have been read since they have had no value (`Spec.read`).
* `shows_after`: what is then stored, as long as no such key is read again.
* `mapLike_iff`: all reads are answered as by a map, and change no other answer, if and only
  if no such key is read again, and all values are found that are read.
-/

namespace Sylph.Cache

open Lib Elixir DataProcessor

/-- `cache_key` -/
inductive CacheKey
  | string (s : String)
  | int (n : ℤ)
  deriving DecidableEq

/-- A key in the metadata of an event. -/
def CacheKey.toTerm : CacheKey → Term
  | string s => .string s
  | int n => .int n

/-- The time a value is kept, in milliseconds; `none` is `:infinity`. -/
abbrev Ttl := Option ℕ

/-- `:timer.minutes(30)` -/
def defaultTtl : Ttl := some (30 * 60 * 1000)

/-- What `fetch` returns. -/
inductive Fetched
  | ok (v : Term)
  | commit (v : Term)
  | ignore (v : Term)
  | error (v : Term)

/-- `match?({:ok, _}, result)` -/
def Fetched.isHit : Fetched → Bool
  | ok _ => true
  | commit _ | ignore _ | error _ => false

/-- What a fallback returns to decide what becomes of its value. -/
def isDecision : Term → Bool
  | .tuple (.atom tag :: _) => tag = "commit" || tag = "ignore" || tag = "error"
  | _ => false

/-- The package that keeps the values of a cache. -/
structure Cachex where
  /-- A cache. -/
  σ : Type
  new : σ
  put : CacheKey → Term → Ttl → σ → Except Term Term × σ
  del : CacheKey → σ → Except Term Term × σ
  clear : σ → Except Term Term × σ
  fetch : CacheKey → (CacheKey → Term) → σ → Fetched × σ
  /-- What is kept under a key, nothing having expired. -/
  content : σ → CacheKey → Option Term
  /-- A value that is found by `fetch`. -/
  present : Term → Bool
  content_new : content new = fun _ => none
  content_put : ∀ key value ttl c,
    content (put key value ttl c).2 = Function.update (content c) key (some value)
  content_del : ∀ key c, content (del key c).2 = Function.update (content c) key none
  content_clear : ∀ c, content (clear c).2 = fun _ => none
  /-- At most `nil` is not found. -/
  present_of_ne_nil : ∀ v, v ≠ .nil → present v = true
  fetch_of_present : ∀ key fallback c v, content c key = some v → present v = true →
    (fetch key fallback c).1 = .ok v ∧ content (fetch key fallback c).2 = content c
  fetch_of_absent : ∀ key fallback c, (∀ v, content c key = some v → present v = false) →
    isDecision (fallback key) = false →
      (fetch key fallback c).1 = .commit (fallback key) ∧
        content (fetch key fallback c).2 =
          Function.update (content c) key (some (fallback key))

/-! ## Cachex on a dictionary -/

namespace Cachex

/-- `nil` is not found by `fetch`. -/
def found : Term → Bool
  | .atom a => a ≠ "nil"
  | _ => true

/-- What becomes of the value of a fallback. -/
def settle (key : CacheKey) (c : Dict CacheKey Term) : Term → Fetched × Dict CacheKey Term
  | .tuple (.atom tag :: v :: vs) =>
    if tag = "commit" then (.commit v, c.insert key v)
    else if tag = "ignore" then (.ignore v, c)
    else if tag = "error" then (.error v, c)
    else
      let value := .tuple (.atom tag :: v :: vs)
      (.commit value, c.insert key value)
  | value => (.commit value, c.insert key value)

theorem settle_of_not_decision {key : CacheKey} {c : Dict CacheKey Term} {value : Term}
    (h : isDecision value = false) : settle key c value = (.commit value, c.insert key value) := by
  unfold settle
  split
  · simp only [isDecision, Bool.or_eq_false_iff, decide_eq_false_iff_not] at h
    obtain ⟨⟨hc, hi⟩, he⟩ := h
    rw [if_neg hc, if_neg hi, if_neg he]
  · rfl

theorem lookup_insert_eq_update (c : Dict CacheKey Term) (key : CacheKey) (value : Term) :
    (fun k => (c.insert key value).lookup k) =
      Function.update (fun k => c.lookup k) key (some value) := by
  funext k
  by_cases hk : k = key
  · rw [hk, AList.lookup_insert, Function.update_self]
  · rw [AList.lookup_insert_ne hk, Function.update_of_ne hk]

theorem lookup_erase_eq_update (c : Dict CacheKey Term) (key : CacheKey) :
    (fun k => (c.erase key).lookup k) = Function.update (fun k => c.lookup k) key none := by
  funext k
  by_cases hk : k = key
  · rw [hk, AList.lookup_erase, Function.update_self]
  · rw [AList.lookup_erase_ne hk, Function.update_of_ne hk]

/-- Cachex, on a dictionary. -/
def onDict : Cachex where
  σ := Dict CacheKey Term
  new := ∅
  put key value _ c := (.ok (.atom "true"), c.insert key value)
  del key c := (.ok (.atom "true"), c.erase key)
  clear c := (.ok (.int (Dict.size c)), ∅)
  fetch key fallback c :=
    match (c.lookup key).filter found with
    | some v => (.ok v, c)
    | none => settle key c (fallback key)
  content c key := c.lookup key
  present := found
  content_new := rfl
  content_put key value _ c := lookup_insert_eq_update c key value
  content_del key c := lookup_erase_eq_update c key
  content_clear _ := rfl
  present_of_ne_nil v h := by
    cases v with
    | atom a => exact decide_eq_true fun ha => h (ha ▸ rfl)
    | _ => rfl
  fetch_of_present key fallback c v hv hp := by
    rw [hv, Option.filter_some, hp]
    exact ⟨rfl, rfl⟩
  fetch_of_absent key fallback c hc hd := by
    have hnone : (c.lookup key).filter found = none := by
      rw [Option.filter_eq_none_iff]
      intro v hv
      rw [hc v hv]
      exact Bool.false_ne_true
    rw [hnone]
    dsimp only
    rw [settle_of_not_decision hd]
    exact ⟨rfl, lookup_insert_eq_update c key _⟩

end Cachex

namespace Store

variable (C : Cachex)

/-- `Events.prefix() ++ [:cache, name]` -/
def event (name : Atom) (duration : ℤ) (metadata : List (Atom × Term)) : Event :=
  ⟨["core", "cache", name], [("duration", .int duration)], metadata⟩

/-- There is no value. -/
def cacheFetchFallback (_key : CacheKey) : Term := .tuple [.atom "ok", .nil]

/-- A value is fetched, with a fallback that has none. -/
def get (duration : ℤ) (cache : Atom) (key : CacheKey) (c : C.σ) :
    Fetched × C.σ × Event :=
  let (result, c) := C.fetch key cacheFetchFallback c
  (result, c, event "get" duration
    [("cache", .atom cache), ("key", key.toTerm), ("hit", .ofBool result.isHit)])

/-- A value is stored, for as long as it is to live. -/
def put (duration : ℤ) (cache : Atom) (key : CacheKey) (value : Term) (c : C.σ)
    (ttl : Ttl := defaultTtl) : Except Term Term × C.σ × Event :=
  let (result, c) := C.put key value ttl c
  (result, c, event "put" duration [("cache", .atom cache), ("key", key.toTerm)])

/-- What is kept under a key is deleted. -/
def delete (duration : ℤ) (cache : Atom) (key : CacheKey) (c : C.σ) :
    Except Term Term × C.σ × Event :=
  let (result, c) := C.del key c
  (result, c, event "delete" duration [("cache", .atom cache), ("key", key.toTerm)])

/-- All that is kept is deleted. -/
def clear (duration : ℤ) (cache : Atom) (c : C.σ) : Except Term Term × C.σ × Event :=
  let (result, c) := C.clear c
  (result, c, event "clear" duration [("cache", .atom cache)])

/-- The operations on a cache, each with the time it takes. -/
inductive Op
  | get (key : CacheKey) (duration : ℤ)
  | put (key : CacheKey) (value : Term) (ttl : Ttl) (duration : ℤ)
  | delete (key : CacheKey) (duration : ℤ)
  | clear (duration : ℤ)

/-- The cache after an operation. -/
def step (cache : Atom) (c : C.σ) : Op → C.σ
  | .get key duration => (get C duration cache key c).2.1
  | .put key value ttl duration => (put C duration cache key value c ttl).2.1
  | .delete key duration => (delete C duration cache key c).2.1
  | .clear duration => (clear C duration cache c).2.1

/-- The cache after some operations. -/
def after (cache : Atom) (ops : List Op) : C.σ := ops.foldl (step C cache) C.new

/-- What a read returns after some operations. -/
def reply (cache : Atom) (ops : List Op) (key : CacheKey) : Fetched :=
  (get C 0 cache key (after C cache ops)).1

/-! ## A map -/

/-- A map, and the keys without a value that have been read. -/
structure Spec where
  map : CacheKey → Option Term
  read : CacheKey → Bool
  map_eq_none : ∀ key, read key = true → map key = none

namespace Spec

/-- A store with nothing in it. -/
def empty : Spec := ⟨fun _ => none, fun _ => false, fun _ h => by cases h⟩

/-- A value is put under a key, or its value is deleted. -/
def set (s : Spec) (key : CacheKey) (v : Option Term) : Spec where
  map := Function.update s.map key v
  read := Function.update s.read key false
  map_eq_none k h := by
    by_cases hk : k = key
    · rw [hk, Function.update_self] at h
      cases h
    · rw [Function.update_of_ne hk] at h ⊢
      exact s.map_eq_none k h

/-- A key is read. -/
def mark (s : Spec) (key : CacheKey) : Spec where
  map := s.map
  read := Function.update s.read key (s.map key).isNone
  map_eq_none k h := by
    by_cases hk : k = key
    · rw [hk, Function.update_self] at h
      rw [hk]
      exact Option.isNone_iff_eq_none.1 h
    · rw [Function.update_of_ne hk] at h
      exact s.map_eq_none k h

section

variable (s : Spec) (key : CacheKey) (v : Option Term)

@[simp] theorem map_set : (s.set key v).map = Function.update s.map key v := rfl

@[simp] theorem read_set : (s.set key v).read = Function.update s.read key false := rfl

@[simp] theorem map_mark : (s.mark key).map = s.map := rfl

@[simp] theorem read_mark :
    (s.mark key).read = Function.update s.read key (s.map key).isNone := rfl

end

/-- A read does not change the map. -/
def step (s : Spec) : Op → Spec
  | .get key _ => s.mark key
  | .put key value _ _ => s.set key (some value)
  | .delete key _ => s.set key none
  | .clear _ => empty

/-- The map after some operations. -/
def after (ops : List Op) : Spec := ops.foldl step empty

theorem after_snoc (ops : List Op) (op : Op) : after (ops ++ [op]) = (after ops).step op := by
  rw [after, List.foldl_append]
  rfl

/-- The same map, with fewer keys that have been read. -/
structure Le (s t : Spec) : Prop where
  map_eq : s.map = t.map
  read : ∀ key, s.read key = true → t.read key = true

theorem Le.refl (s : Spec) : s.Le s := ⟨rfl, fun _ h => h⟩

theorem le_mark (s : Spec) (key : CacheKey) : s.Le (s.mark key) where
  map_eq := rfl
  read k h := by
    rw [read_mark]
    by_cases hk : k = key
    · subst hk
      rw [Function.update_self, s.map_eq_none k h]
      rfl
    · rwa [Function.update_of_ne hk]

/-- Later operations keep the order. -/
theorem Le.step {s t : Spec} (h : s.Le t) (op : Op) : (s.step op).Le (t.step op) := by
  have hu : ∀ (key k : CacheKey) (b : Bool), Function.update s.read key b k = true →
      Function.update t.read key b k = true := fun key k b hk => by
    by_cases hkey : k = key
    · rw [hkey, Function.update_self] at hk ⊢
      exact hk
    · rw [Function.update_of_ne hkey] at hk ⊢
      exact h.read k hk
  cases op with
  | get key _ =>
    refine ⟨h.map_eq, fun k hk => ?_⟩
    rw [Spec.step, read_mark, ← h.map_eq]
    exact hu key k _ hk
  | put key _ _ _ | delete key _ =>
    exact ⟨congrArg (fun m => Function.update m key _) h.map_eq, fun k => hu key k false⟩
  | clear _ => exact .refl _

/-- Without one of the reads before, the map is the same. -/
theorem le_after (before mid : List Op) (key : CacheKey) (duration : ℤ) :
    (after (before ++ mid)).Le (after (before ++ .get key duration :: mid)) := by
  induction mid using List.reverseRecOn with
  | nil =>
    rw [List.append_nil, after_snoc]
    exact le_mark _ key
  | append_singleton mid op ih =>
    rw [← List.append_assoc, ← List.cons_append, ← List.append_assoc, after_snoc, after_snoc]
    exact ih.step op

end Spec

variable {C} {cache : Atom} {c : C.σ} {s : Spec} {key : CacheKey}

/-- A read of a key is answered as by a map: the key has not been read since it has had no
    value, and its value is found. -/
def Spec.Good (C : Cachex) (s : Spec) (key : CacheKey) : Prop :=
  s.read key = false ∧ ∀ v, s.map key = some v → C.present v = true

theorem Spec.Le.good {s t : Spec} (h : s.Le t) (ht : t.Good C key) : s.Good C key := by
  obtain ⟨hr, hp⟩ := ht
  refine ⟨?_, fun v hv => hp v (h.map_eq ▸ hv)⟩
  cases hs : s.read key with
  | false => rfl
  | true => rw [h.read key hs] at hr; cases hr

/-- The answer to a read, by the value of its key: a hit with this value, or a miss. -/
def Reports (r : Fetched) : Option Term → Prop
  | some v => r = .ok v
  | none => r.isHit = false

/-- What is kept under a key: what the map has; for a key without a value that has been read,
    the answer. -/
def Spec.kept (s : Spec) (key : CacheKey) : Option Term :=
  if s.read key then some (cacheFetchFallback key) else s.map key

theorem Spec.kept_of_not_read (h : s.read key = false) : s.kept key = s.map key := by
  rw [kept, h, if_neg Bool.false_ne_true]

theorem Spec.kept_set (s : Spec) (key : CacheKey) (v : Option Term) :
    (s.set key v).kept = Function.update s.kept key v := by
  funext k
  by_cases hk : k = key
  · simp [kept, hk]
  · simp [kept, hk]

/-- The answer is kept once a key without a value is read. -/
theorem Spec.kept_mark_of_none (h : s.map key = none) :
    (s.mark key).kept = Function.update s.kept key (some (cacheFetchFallback key)) := by
  funext k
  by_cases hk : k = key
  · simp [kept, hk, h]
  · simp [kept, hk]

theorem Spec.kept_mark_of_some {v : Term} (h : s.map key = some v) :
    (s.mark key).kept = s.kept := by
  have hr : s.read key = false :=
    Bool.eq_false_iff.2 fun hr => Option.some_ne_none v (h.symm.trans (s.map_eq_none key hr))
  funext k
  by_cases hk : k = key
  · simp [kept, hk, h, hr]
  · simp [kept, hk]

/-- A cache keeps what is to be kept. -/
def Shows (C : Cachex) (c : C.σ) (s : Spec) : Prop := C.content c = s.kept

theorem shows_new : Shows C C.new .empty := C.content_new

theorem present_fallback (key : CacheKey) : C.present (cacheFetchFallback key) = true :=
  C.present_of_ne_nil _ fun h => by cases h

theorem isDecision_fallback (key : CacheKey) : isDecision (cacheFetchFallback key) = false := by
  rw [cacheFetchFallback]
  rfl

/-- The value of a key, or else the answer that there is none. -/
def answer (key : CacheKey) : Option Term → Fetched
  | some v => .ok v
  | none => .commit (cacheFetchFallback key)

/-- A good read: the answer, and what is then kept. -/
theorem Shows.fetch (h : Shows C c s) (hg : s.Good C key) :
    (C.fetch key cacheFetchFallback c).1 = answer key (s.map key) ∧
      Shows C (C.fetch key cacheFetchFallback c).2 (s.mark key) := by
  obtain ⟨hr, hp⟩ := hg
  have hc : C.content c key = s.map key := (congrFun h key).trans (Spec.kept_of_not_read hr)
  cases hm : s.map key with
  | none =>
    -- A miss: the answer of the fallback is kept from now on.
    obtain ⟨hf, hk⟩ := C.fetch_of_absent key cacheFetchFallback c
      (fun v hv => by rw [hc, hm] at hv; cases hv) (isDecision_fallback key)
    refine ⟨hf, ?_⟩
    rw [Shows, hk, Spec.kept_mark_of_none hm, h]
  | some v =>
    -- A hit changes nothing.
    obtain ⟨hf, hk⟩ := C.fetch_of_present key cacheFetchFallback c v (hc.trans hm) (hp v hm)
    refine ⟨hf, ?_⟩
    rw [Shows, hk, Spec.kept_mark_of_some hm, h]

/-- A read is answered as by the map if and only if it is good. -/
theorem Shows.reports_iff (h : Shows C c s) :
    Reports (C.fetch key cacheFetchFallback c).1 (s.map key) ↔ s.Good C key := by
  constructor
  · intro hrep
    have hc : C.content c key = s.kept key := congrFun h key
    cases hr : s.read key with
    | true =>
      -- The answer to an earlier read is found: a hit.
      rw [Spec.kept, hr, if_pos rfl] at hc
      obtain ⟨hf, -⟩ := C.fetch_of_present key cacheFetchFallback c _ hc (present_fallback key)
      rw [s.map_eq_none key hr, hf] at hrep
      cases hrep
    | false =>
      refine ⟨hr, fun v hv => ?_⟩
      rw [Spec.kept_of_not_read hr, hv] at hc
      cases hp : C.present v with
      | true => rfl
      | false =>
        -- The value is not found: a miss.
        obtain ⟨hf, -⟩ := C.fetch_of_absent key cacheFetchFallback c
          (fun v' hv' => by rw [hc] at hv'; exact Option.some_inj.1 hv' ▸ hp)
          (isDecision_fallback key)
        rw [hv, hf] at hrep
        cases hrep
  · intro hg
    rw [(h.fetch hg).1]
    cases s.map key <;> rfl

/-- A value is put, or deleted. -/
theorem Shows.set (h : Shows C c s) {c' : C.σ} {v : Option Term}
    (hc : C.content c' = Function.update (C.content c) key v) : Shows C c' (s.set key v) := by
  rw [Shows, hc, Spec.kept_set, h]

/-- An operation, if it is not a bad read. -/
theorem Shows.step (h : Shows C c s) {op : Op}
    (hop : ∀ key duration, op = .get key duration → s.Good C key) :
    Shows C (step C cache c op) (s.step op) := by
  cases op with
  | get key duration => exact (h.fetch (hop key duration rfl)).2
  | put key value ttl _ => exact h.set (C.content_put key value ttl c)
  | delete key _ => exact h.set (C.content_del key c)
  | clear _ => exact C.content_clear c

/-! ## Sequences of operations -/

/-- A property of the reads of a sequence: of the operations before a read, and its key. -/
def EachGet (P : List Op → CacheKey → Prop) (ops : List Op) : Prop :=
  ∀ before key duration rest, ops = before ++ .get key duration :: rest → P before key

theorem EachGet.left {P : List Op → CacheKey → Prop} {ops ops' : List Op}
    (h : EachGet P (ops ++ ops')) : EachGet P ops := by
  intro before key duration rest heq
  refine h before key duration (rest ++ ops') ?_
  rw [heq, List.append_assoc]
  rfl

theorem eachGet_snoc {P : List Op → CacheKey → Prop} {ops : List Op} {op : Op} :
    EachGet P (ops ++ [op]) ↔
      EachGet P ops ∧ ∀ key duration, op = .get key duration → P ops key := by
  constructor
  · intro h
    exact ⟨h.left, fun key duration hop => h ops key duration [] (by rw [hop])⟩
  · intro ⟨h, hop⟩ before key duration rest heq
    -- The read is the last operation, or one of those before it.
    rcases List.eq_nil_or_concat rest with rfl | ⟨rest', op', rfl⟩
    · obtain ⟨rfl, hlast⟩ := List.append_inj' heq rfl
      exact hop key duration (List.singleton_inj.1 hlast)
    · rw [List.concat_eq_append, ← List.cons_append, ← List.append_assoc] at heq
      exact h before key duration rest' (List.append_inj' heq rfl).1

/-- Two properties hold of the same reads, if they agree after reads that have the second. -/
theorem eachGet_congr {P Q : List Op → CacheKey → Prop}
    (h : ∀ ops key, EachGet Q ops → (P ops key ↔ Q ops key)) {ops : List Op} :
    EachGet P ops ↔ EachGet Q ops := by
  induction ops using List.reverseRecOn with
  | nil =>
    have hnil : ∀ P, EachGet P [] := fun _ _ _ _ _ heq => by simp at heq
    exact iff_of_true (hnil P) (hnil Q)
  | append_singleton ops op ih =>
    rw [eachGet_snoc, eachGet_snoc, ih]
    exact and_congr_right fun hQ =>
      forall_congr' fun key => forall₂_congr fun _ _ => h ops key hQ

/-- No key is read again while it has had no value since a read, and all values are found
    that are read. -/
def GoodReads (C : Cachex) (ops : List Op) : Prop :=
  EachGet (fun before key => (Spec.after before).Good C key) ops

/-- All reads of a sequence are answered as by a map. -/
def MapLike (C : Cachex) (cache : Atom) (ops : List Op) : Prop :=
  EachGet (fun before key => Reports (reply C cache before key) ((Spec.after before).map key)) ops

/-- No read of a sequence changes what a later one returns. -/
def Transparent (C : Cachex) (cache : Atom) (ops : List Op) : Prop :=
  ∀ before key duration mid key' duration' rest,
    ops = before ++ .get key duration :: (mid ++ .get key' duration' :: rest) →
      reply C cache (before ++ .get key duration :: mid) key' =
        reply C cache (before ++ mid) key'

theorem after_snoc (ops : List Op) (op : Op) :
    after C cache (ops ++ [op]) = step C cache (after C cache ops) op := by
  rw [after, List.foldl_append]
  rfl

/-- What is kept after some operations. -/
theorem shows_after {ops : List Op} (h : GoodReads C ops) :
    Shows C (after C cache ops) (Spec.after ops) := by
  induction ops using List.reverseRecOn with
  | nil => exact shows_new
  | append_singleton ops op ih =>
    obtain ⟨h, hop⟩ := eachGet_snoc.1 h
    rw [after_snoc, Spec.after_snoc]
    exact (ih h).step hop

/-- Good reads stay good without a read before them. -/
theorem GoodReads.remove {before mid : List Op} {duration : ℤ}
    (h : GoodReads C (before ++ .get key duration :: mid)) : GoodReads C (before ++ mid) := by
  induction mid using List.reverseRecOn with
  -- The read is the last operation.
  | nil =>
    rw [List.append_nil]
    exact (eachGet_snoc.1 h).1
  | append_singleton mid op ih =>
    rw [← List.cons_append, ← List.append_assoc] at h
    obtain ⟨h, hop⟩ := eachGet_snoc.1 h
    rw [← List.append_assoc]
    exact eachGet_snoc.2 ⟨ih h, fun k d hk =>
      (Spec.le_after before mid key duration).good (hop k d hk)⟩

/-- A good read after good reads returns what the map has. -/
theorem reply_eq {ops : List Op} (h : GoodReads C ops) (hg : (Spec.after ops).Good C key) :
    reply C cache ops key = answer key ((Spec.after ops).map key) :=
  ((shows_after h).fetch hg).1

/-- The reads of a sequence are answered as by a map if and only if they are good. -/
theorem mapLike_iff_goodReads {ops : List Op} : MapLike C cache ops ↔ GoodReads C ops :=
  eachGet_congr fun _ _ h => (shows_after h).reports_iff

/-- Good reads change no later answer. -/
theorem GoodReads.transparent {ops : List Op} (h : GoodReads C ops) :
    Transparent C cache ops := by
  intro before key duration mid key' duration' rest heq
  have hops : ops = (before ++ .get key duration :: mid) ++ .get key' duration' :: rest := by
    rw [heq, List.append_assoc]
    rfl
  -- Both reads come after good reads, and have the same map before them.
  have hmid : GoodReads C (before ++ .get key duration :: mid) := (hops ▸ h : GoodReads C _).left
  have hg : (Spec.after (before ++ .get key duration :: mid)).Good C key' :=
    h _ key' duration' rest hops
  have hle := Spec.le_after before mid key duration
  rw [reply_eq hmid hg, reply_eq hmid.remove (hle.good hg), hle.map_eq]

/-- The cache behaves as a map in a sequence of operations if and only if no key is read
    again while it has had no value since a read, and all values are found that are read. -/
theorem mapLike_iff (C : Cachex) (cache : Atom) (ops : List Op) :
    MapLike C cache ops ∧ Transparent C cache ops ↔ GoodReads C ops :=
  ⟨fun h => mapLike_iff_goodReads.1 h.1, fun h => ⟨mapLike_iff_goodReads.2 h, h.transparent⟩⟩

/-- A value is put, and read twice. -/
def putFirst : List Op :=
  [.put (.int 7) (.binary [1]) defaultTtl 0] ++ [.get (.int 7) 0] ++ [.get (.int 7) 0]

theorem goodReads_putFirst : GoodReads .onDict putFirst := by
  have hput : GoodReads .onDict [.put (.int 7) (.binary [1]) defaultTtl 0] := by
    rintro (_ | ⟨op, before⟩) key duration rest heq <;> simp at heq
  refine eachGet_snoc.2 ⟨eachGet_snoc.2 ⟨hput, ?_⟩, ?_⟩
  · rintro key duration ⟨⟩
    exact ⟨rfl, by rintro v ⟨⟩; rfl⟩
  · rintro key duration ⟨⟩
    exact ⟨rfl, by rintro v ⟨⟩; rfl⟩

/-- Both reads find it. -/
theorem mapLike_putFirst :
    MapLike .onDict "block_cache" putFirst ∧ Transparent .onDict "block_cache" putFirst :=
  (mapLike_iff .onDict "block_cache" putFirst).2 goodReads_putFirst

/-- A key without a value is read twice. -/
def secondRead : List Op := [.get (.string "missing") 0, .get (.string "missing") 0]

/-- The second read is a hit. -/
theorem not_forall_mapLike :
    ¬∀ (C : Cachex) (cache : Atom) (ops : List Op),
      MapLike C cache ops ∧ Transparent C cache ops := by
  intro h
  have hread := (h .onDict "block_cache" secondRead).1 [.get (.string "missing") 0]
    (.string "missing") 0 [] rfl
  cases hread

end Store

end Sylph.Cache
