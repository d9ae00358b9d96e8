import Sylph.Cache.Store

/-!
# Computing a value once

`Core.Cache.Store.get_or_store`, which is to compute the value of a key, and to store it, if
the key has none.

* `Cachex.Updates`: `get_and_update` of the package, with what is documented of it: its
  projector is given what is kept under the key, or `nil`.
* `project`: the projector, which expects `{:ok, value}` or `:not_found`, as `get` of the
  package has it.
* `content_getOrStore_of_none`: for a key without a value, the function is not called, and
  the answer that there is none is stored; the next call returns `nil`
  (`getOrStore_again`).
* `not_computesOnce`: so no value is ever returned or computed as it is meant to be.
-/

namespace Sylph.Cache

open Lib Elixir DataProcessor

/-- What a call does on its way. -/
inductive Effect
  /-- The function of the caller is called. -/
  | call
  | execute (event : Event)

/-- The function is called. -/
def Effect.isCall : Effect → Bool
  | call => true
  | execute _ => false

/-- What is done, and the result, or the error that is raised. -/
structure Computation (α : Type) where
  effects : List Effect
  result : Except Exn α

/-- How often the function of the caller is called. -/
def Computation.calls {α : Type} (m : Computation α) : ℕ :=
  (m.effects.filter Effect.isCall).length

namespace Cachex

/-- What is kept under a key, or `nil`. -/
def raw (C : Cachex) (c : C.σ) (key : CacheKey) : Term := (C.content c key).getD .nil

/-- `Cachex.get_and_update` -/
structure Updates (C : Cachex) where
  getAndUpdate : CacheKey → (Term → Computation Term) → C.σ → Computation Fetched × C.σ
  /-- The projector is called once, with what is kept. -/
  effects_getAndUpdate : ∀ key projector c,
    (getAndUpdate key projector c).1.effects = (projector (C.raw c key)).effects
  getAndUpdate_commit : ∀ key projector c v,
    (projector (C.raw c key)).result = .ok (.tuple [.atom "commit", v]) →
      (getAndUpdate key projector c).1.result = .ok (.commit v) ∧
        C.content (getAndUpdate key projector c).2 = Function.update (C.content c) key (some v)
  /-- An error of the projector is raised, or returned. -/
  getAndUpdate_raise : ∀ key projector c e, (projector (C.raw c key)).result = .error e →
    ((getAndUpdate key projector c).1.result = .error e ∨
        ∃ reason, (getAndUpdate key projector c).1.result = .ok (.error reason)) ∧
      C.content (getAndUpdate key projector c).2 = C.content c

/-- `get_and_update` on a dictionary. An error of the projector is returned, as its text. -/
def Updates.onDict (message : Exn → String) : Updates .onDict where
  getAndUpdate key projector c :=
    let projected := projector ((c.lookup key).getD .nil)
    match projected.result with
    | .ok value =>
      let (result, c) := settle key c value
      (⟨projected.effects, .ok result⟩, c)
    | .error e => (⟨projected.effects, .ok (.error (.string (message e)))⟩, c)
  effects_getAndUpdate key projector c := by
    rw [raw]
    rcases h : (projector ((c.lookup key).getD .nil)).result with e | value <;>
      simp only [Cachex.onDict, h]
  getAndUpdate_commit key projector c v h := by
    have h : (projector ((c.lookup key).getD .nil)).result = .ok (.tuple [.atom "commit", v]) := h
    simp only [h]
    exact ⟨rfl, lookup_insert_eq_update c key v⟩
  getAndUpdate_raise key projector c e h := by
    have h : (projector ((c.lookup key).getD .nil)).result = .error e := h
    simp only [h]
    exact ⟨.inr ⟨_, rfl⟩, trivial⟩

end Cachex

/-- How long a value is to live, as an option. -/
def Ttl.toTerm : Ttl → Term
  | some ms => .int ms
  | none => .atom "infinity"

namespace Store

/-- What a call finds: the time it takes, the system time, and the texts of errors. -/
structure Env where
  duration : ℤ
  systemTime : ℤ
  message : Exn → String

/-- The pattern `{:ok, value}`. -/
def okValue : Term → Option Term
  | .tuple [.atom tag, value] => if tag = "ok" then some value else none
  | _ => none

/-- The pattern `{:ok, value, opts} when is_list(opts)`. -/
def okValueWith : Term → Option (Term × Term)
  | .tuple [.atom tag, value, .list opts] => if tag = "ok" then some (value, .list opts) else none
  | _ => none

/-- `safe_execute`, of a function that returns or raises. -/
def safeExecute (env : Env) : Except Exn Term → Computation Term
  | .ok result =>
    { effects := [.call]
      result := .ok <|
        match okValue result, okValueWith result with
        | some value, _ => .tuple [.atom "commit", value]
        | none, some (value, opts) => .tuple [.atom "commit", value, opts]
        | none, none => .tuple [.atom "commit", result] }
  | .error e =>
    { effects := [.call, .execute ⟨["core", "cache", "computation_error"],
        [("timestamp", .int env.systemTime)], [("error", .string (env.message e))]⟩]
      result := .ok (.tuple [.atom "ignore", .nil]) }

/-- The clause `{:commit, value} -> {:commit, value, ttl: ttl}`. -/
def addTtl (ttl : Ttl) : Term → Term
  | .tuple [.atom tag, value] =>
    if tag = "commit" then
      .tuple [.atom "commit", value, .list [.tuple [.atom "ttl", ttl.toTerm]]]
    else
      .tuple [.atom tag, value]
  | other => other

/-- The projector of `get_or_store`. -/
def project (env : Env) (func : Except Exn Term) (ttl : Ttl) (raw : Term) : Computation Term :=
  match okValue raw with
  | some value => ⟨[], .ok (.tuple [.atom "commit", value])⟩
  | none =>
    if raw = .atom "not_found" then
      let executed := safeExecute env func
      ⟨executed.effects, executed.result.map (addTtl ttl)⟩
    else
      ⟨[], .error .functionClause⟩

variable {C : Cachex}

/-- `get_or_store`, with a function that returns or raises when it is called. -/
def getOrStore (U : C.Updates) (env : Env) (cache : Atom) (key : CacheKey)
    (func : Except Exn Term) (c : C.σ) (ttl : Ttl := defaultTtl) : Computation Fetched × C.σ :=
  let (updated, c) := U.getAndUpdate key (project env func ttl) c
  match updated.result with
  | .error e => (⟨updated.effects, .error e⟩, c)
  | .ok result =>
    let (found, c) := C.fetch key cacheFetchFallback c
    let executed := event "get_or_store" env.duration
      [("cache", .atom cache), ("key", key.toTerm), ("computed", .ofBool !found.isHit)]
    (⟨updated.effects ++ [.execute executed], .ok result⟩, c)

section

variable {U : C.Updates} {env env' : Env} {cache cache' : Atom} {key : CacheKey}
  {func func' : Except Exn Term} {ttl ttl' : Ttl} {c : C.σ}

/-! ## The projector -/

theorem okValue_eq_some {t v : Term} : okValue t = some v ↔ t = .tuple [.atom "ok", v] := by
  constructor
  · intro h
    unfold okValue at h
    split at h
    next tag value =>
      split at h
      next htag =>
        cases h
        rw [htag]
      next => cases h
    next => cases h
  · rintro rfl
    rfl

/-- The function is called once, for a value that says that there is none. -/
theorem project_notFound (env : Env) (func : Except Exn Term) (ttl : Ttl) :
    (project env func ttl (.atom "not_found")).calls = 1 := by
  cases func <;> rfl

/-- A value that is no answer of `get` fits no clause. -/
theorem project_of_other {raw : Term} (hok : okValue raw = none) (hnot : raw ≠ .atom "not_found") :
    project env func ttl raw = ⟨[], .error .functionClause⟩ := by
  rw [project, hok]
  exact if_neg hnot

theorem project_of_ok (env : Env) (func : Except Exn Term) (ttl : Ttl) (v : Term) :
    project env func ttl (.tuple [.atom "ok", v]) = ⟨[], .ok (.tuple [.atom "commit", v])⟩ := rfl

theorem project_nil (env : Env) (func : Except Exn Term) (ttl : Ttl) :
    project env func ttl .nil = ⟨[], .error .functionClause⟩ :=
  project_of_other rfl (by decide)

/-! ## What a call does -/

theorem getOrStore_of_error {e : Exn}
    (h : (U.getAndUpdate key (project env func ttl) c).1.result = .error e) :
    getOrStore U env cache key func c ttl =
      (⟨(U.getAndUpdate key (project env func ttl) c).1.effects, .error e⟩,
        (U.getAndUpdate key (project env func ttl) c).2) := by
  simp only [getOrStore, h]

/-- A result is that of the update; the read that follows is for its event. -/
theorem getOrStore_of_ok {result : Fetched}
    (h : (U.getAndUpdate key (project env func ttl) c).1.result = .ok result) :
    (getOrStore U env cache key func c ttl).1.result = .ok result ∧
      (getOrStore U env cache key func c ttl).2 =
        (C.fetch key cacheFetchFallback (U.getAndUpdate key (project env func ttl) c).2).2 := by
  simp only [getOrStore, h]
  exact ⟨trivial, trivial⟩

/-- The function is called by the projector only. -/
theorem calls_getOrStore : (getOrStore U env cache key func c ttl).1.calls =
    (project env func ttl (C.raw c key)).calls := by
  have heff := U.effects_getAndUpdate key (project env func ttl) c
  rcases h : (U.getAndUpdate key (project env func ttl) c).1.result with e | result
  · rw [getOrStore_of_error h, Computation.calls, heff, Computation.calls]
  · simp only [getOrStore, h, Computation.calls, heff, List.filter_append, List.length_append]
    rfl

/-- The value in `{:ok, v}` takes its place, and is returned. -/
theorem getOrStore_of_content_ok (U : C.Updates) (env : Env) (cache : Atom) (func : Except Exn Term)
    (ttl : Ttl) {v : Term} (h : C.content c key = some (.tuple [.atom "ok", v])) :
    (getOrStore U env cache key func c ttl).1.result = .ok (.commit v) ∧
      (getOrStore U env cache key func c ttl).1.calls = 0 := by
  have hraw : C.raw c key = .tuple [.atom "ok", v] := by rw [Cachex.raw, h, Option.getD_some]
  have hproj : (project env func ttl (C.raw c key)).result = .ok (.tuple [.atom "commit", v]) := by
    rw [hraw, project_of_ok]
  obtain ⟨hresult, -⟩ := U.getAndUpdate_commit key (project env func ttl) c v hproj
  refine ⟨(getOrStore_of_ok hresult).1, ?_⟩
  rw [calls_getOrStore, hraw, project_of_ok]
  rfl

/-- A value that fits no clause is not returned, and neither is another. -/
theorem result_getOrStore_of_other (U : C.Updates) (cache : Atom)
    (h : (project env func ttl (C.raw c key)).result = .error .functionClause) :
    ∀ v, (getOrStore U env cache key func c ttl).1.result ≠ .ok (.ok v) ∧
      (getOrStore U env cache key func c ttl).1.result ≠ .ok (.commit v) := by
  obtain ⟨hraise | ⟨reason, hreason⟩, -⟩ :=
    U.getAndUpdate_raise key (project env func ttl) c .functionClause h
  · rw [getOrStore_of_error hraise]
    exact fun v => ⟨fun h => (by cases h), fun h => (by cases h)⟩
  · rw [(getOrStore_of_ok hreason).1]
    exact fun v => ⟨fun h => (by cases h), fun h => (by cases h)⟩

/-- For a key without a value, the function is not called, and if nothing is raised, the
    answer that there is no value is stored. -/
theorem content_getOrStore_of_none (U : C.Updates) (env : Env) (cache : Atom)
    (func : Except Exn Term) (ttl : Ttl) (h : C.content c key = none) :
    (getOrStore U env cache key func c ttl).1.calls = 0 ∧
      ∀ result, (getOrStore U env cache key func c ttl).1.result = .ok result →
        C.content (getOrStore U env cache key func c ttl).2 =
          Function.update (C.content c) key (some (cacheFetchFallback key)) := by
  have hraw : C.raw c key = .nil := by rw [Cachex.raw, h, Option.getD_none]
  refine ⟨by rw [calls_getOrStore, hraw, project_nil]; rfl, fun result hresult => ?_⟩
  obtain ⟨hr, hc⟩ := U.getAndUpdate_raise key (project env func ttl) c .functionClause
    (by rw [hraw, project_nil])
  rcases hr with hraise | ⟨reason, hreason⟩
  · rw [getOrStore_of_error hraise] at hresult
    cases hresult
  · -- The update has stored nothing: the read for the event stores its answer.
    have habsent : ∀ v, C.content (U.getAndUpdate key (project env func ttl) c).2 key = some v →
        C.present v = false := fun v hv => by
      rw [hc, h] at hv
      cases hv
    rw [(getOrStore_of_ok hreason).2,
      (C.fetch_of_absent key cacheFetchFallback _ habsent (isDecision_fallback key)).2, hc]

/-- The next call returns `nil`, whatever the function. -/
theorem getOrStore_again (h : C.content c key = none) {result : Fetched}
    (hresult : (getOrStore U env cache key func c ttl).1.result = .ok result) :
    (getOrStore U env' cache' key func' (getOrStore U env cache key func c ttl).2 ttl').1.result =
        .ok (.commit .nil) ∧
      (getOrStore U env' cache' key func' (getOrStore U env cache key func c ttl).2
        ttl').1.calls = 0 := by
  refine getOrStore_of_content_ok U env' cache' func' ttl' ?_
  rw [(content_getOrStore_of_none U env cache func ttl h).2 result hresult, Function.update_self]
  rfl

/-! ## Computing once -/

/-- What is computed by a function that returns. -/
def computed (result : Term) : Term :=
  match okValue result, okValueWith result with
  | some value, _ => value
  | none, some (value, _) => value
  | none, none => result

/-- A value is returned. -/
def Returns (r : Except Exn Fetched) (v : Term) : Prop := r = .ok (.ok v) ∨ r = .ok (.commit v)

variable (U) in
/-- A value that is kept is returned, and the function not called. Otherwise it is called once,
    and what it computes is stored and returned; if it raises, nothing is stored or raised. -/
def ComputesOnce (env : Env) (cache : Atom) (key : CacheKey) (func : Except Exn Term) (c : C.σ)
    (ttl : Ttl) : Prop :=
  let (done, c') := getOrStore U env cache key func c ttl
  match C.content c key with
  | some v => Returns done.result v ∧ done.calls = 0
  | none => done.calls = 1 ∧
    match func with
    | .ok result => Returns done.result (computed result) ∧
        C.content c' key = some (computed result)
    | .error _ => C.content c' = C.content c ∧ ∃ result, done.result = .ok result

theorem ne_tuple_ok (v : Term) : v ≠ .tuple [.atom "ok", v] := by
  intro h
  have hsize := congrArg sizeOf h
  simp only [Term.tuple.sizeOf_spec, List.cons.sizeOf_spec] at hsize
  omega

/-- A value that is kept is not returned as it is, or the function is called. -/
theorem not_returns_of_content (U : C.Updates) (env : Env) (cache : Atom) (func : Except Exn Term)
    (ttl : Ttl) {v : Term} (h : C.content c key = some v)
    (hcalls : (getOrStore U env cache key func c ttl).1.calls = 0) :
    ¬Returns (getOrStore U env cache key func c ttl).1.result v := by
  have hraw : C.raw c key = v := by rw [Cachex.raw, h, Option.getD_some]
  rcases hok : okValue v with _ | w
  · by_cases hnot : v = .atom "not_found"
    · rw [calls_getOrStore, hraw, hnot, project_notFound] at hcalls
      exact absurd hcalls Nat.one_ne_zero
    · have hproj : (project env func ttl (C.raw c key)).result = .error .functionClause := by
        rw [hraw, project_of_other hok hnot]
      obtain ⟨hno, hnc⟩ := result_getOrStore_of_other U cache hproj v
      exact not_or.2 ⟨hno, hnc⟩
  · rw [okValue_eq_some] at hok
    subst hok
    rw [Returns, (getOrStore_of_content_ok U env cache func ttl h).1]
    rintro (hret | hret)
    · cases hret
    · exact ne_tuple_ok w (Fetched.commit.inj (Except.ok.inj hret))

/-- No call computes a value once: a key without a value is not found to have none, and a
    value that is kept is not returned as it is. -/
theorem not_computesOnce (U : C.Updates) (env : Env) (cache : Atom) (key : CacheKey)
    (func : Except Exn Term) (c : C.σ) (ttl : Ttl) :
    ¬ComputesOnce U env cache key func c ttl := by
  intro hm
  simp only [ComputesOnce] at hm
  rcases h : C.content c key with _ | v
  · rw [h] at hm
    have hcalls := (content_getOrStore_of_none U env cache func ttl h).1
    exact absurd (hcalls.symm.trans hm.1) Nat.zero_ne_one
  · rw [h] at hm
    exact not_returns_of_content U env cache func ttl h hm.2 hm.1

/-- The cache is empty, and the function returns 42. -/
theorem not_forall_computesOnce : ¬∀ (C : Cachex) (U : C.Updates) (env : Env) (cache : Atom)
    (key : CacheKey) (func : Except Exn Term) (c : C.σ) (ttl : Ttl),
      ComputesOnce U env cache key func c ttl := by
  intro h
  have hm := h .onDict (.onDict fun _ => "no function clause matching") ⟨0, 0, fun _ => ""⟩
    "block_cache" (.int 7) (.ok (.int 42)) (∅ : Dict CacheKey Term) defaultTtl
  exact absurd hm.1 Nat.zero_ne_one

end

end Store

end Sylph.Cache
