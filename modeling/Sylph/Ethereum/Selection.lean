import Sylph.Ethereum.HealthCheck
import Sylph.Lib.Circle

/-!
# The choice of a client

The RPC client of the Ethereum service calls one of its clients, the one the shared index
`current` is at, or the next one that is healthy (`getHealthyClient`).

* `scan_eq`: the loop goes through the clients in a circle, from the index on, up to the
  first healthy one.
* `getHealthyClient_iff`: but it makes as many steps only as there are healthy clients. If the
  first one is farther away, the first healthy client of the list is returned, and the index
  stays where it was.
-/

namespace Sylph.Ethereum

open Lib Go Circle

/-! ## The clients -/

/-- The loop over the offsets: the first healthy client, with its index. -/
def scan (clients : List HealthyClient) (cur : ℤ) :
    List ℕ → Result (Option (ℤ × HealthyClient))
  | [] => .ok none
  | offset :: offsets => do
    let idx := (cur + offset).tmod clients.length
    let hc ← index clients idx
    if hc.isHealthy then return some (idx, hc) else scan clients cur offsets

/-- The indices of the healthy clients. -/
def candidates (clients : List HealthyClient) : List ℕ :=
  (clients.zipIdx.filter fun x => x.1.isHealthy).map Prod.snd

/-- The client that is chosen, and the index of the current one after that. -/
def getHealthyClient (clients : List HealthyClient) (current : Int32) :
    Result HealthyClient × Int32 :=
  match candidates clients with
  | [] => (.error (.err "no healthy clients available"), current)
  | first :: _ =>
    match scan clients current.toInt (List.range (candidates clients).length) with
    | .ok (some (idx, hc)) => (.ok hc, .ofInt idx)
    | .ok none => (index clients first, current)
    | .error fault => (.error fault, current)

/-- The clients of the endpoints, and the indices of the current ones. -/
structure Client where
  httpClients : List HealthyClient
  current : Int32
  wsClients : List HealthyClient
  wsCurrent : Int32

/-- A healthy client for HTTP, and the index it leaves. -/
def Client.currentClient (c : Client) : Result HealthyClient × Client :=
  let (client, current) := getHealthyClient c.httpClients c.current
  (client, { c with current := current })

/-- `NextClient` -/
def Client.nextClient (c : Client) : Client := { c with current := c.current + 1 }

/-- A healthy client for websockets, and the index it leaves. -/
def Client.wsClient (c : Client) : Result HealthyClient × Client :=
  let (client, current) := getHealthyClient c.wsClients c.wsCurrent
  (client, { c with wsCurrent := current })

/-- `NextWSClient` -/
def Client.nextWSClient (c : Client) : Client := { c with wsCurrent := c.wsCurrent + 1 }

/-! ## The loop -/

/-- The client at a place is healthy. -/
def HealthyAt (clients : List HealthyClient) (k : ℕ) : Prop :=
  (clients[k]?.any HealthyClient.isHealthy) = true

instance (clients : List HealthyClient) : DecidablePred (HealthyAt clients) :=
  fun k => inferInstanceAs (Decidable ((clients[k]?.any HealthyClient.isHealthy) = true))

variable {clients : List HealthyClient} {current : Int32} {d : ℕ}

theorem healthyAt_iff {k : ℕ} {hc : HealthyClient} (h : clients[k]? = some hc) :
    HealthyAt clients k ↔ hc.isHealthy = true := by
  rw [HealthyAt, h, Option.any_some]

theorem exists_client (hne : clients ≠ []) (cur d : ℕ) :
    ∃ hc, clients[place clients.length cur d]? = some hc :=
  ⟨_, List.getElem?_eq_getElem (place_lt (List.length_pos_of_ne_nil hne))⟩

/-- The loop comes to the first offset at which there is a healthy client. -/
theorem scan_eq (hne : clients ≠ []) (cur : ℕ) (offsets : List ℕ) :
    scan clients cur offsets =
      .ok ((offsets.find? fun d => HealthyAt clients (place clients.length cur d)).bind fun d =>
        clients[place clients.length cur d]?.map fun hc =>
          (↑(place clients.length cur d), hc)) := by
  induction offsets with
  | nil => rfl
  | cons d offsets ih =>
    obtain ⟨hc, hd⟩ := exists_client hne cur d
    have hidx : ((cur : ℤ) + d).tmod clients.length = ↑(place clients.length cur d) := rfl
    rw [scan, hidx, index_natCast hd, List.find?_cons, ih]
    by_cases hh : hc.isHealthy = true
    · simp [(healthyAt_iff hd).2 hh, hd, hh, bind, Except.bind, pure, Except.pure]
    · simp [(healthyAt_iff hd).not.2 hh, hh, bind, Except.bind]

/-! ## The choice -/

/-- The first healthy client from the current one on, in the circle of the clients, is
    chosen, and is the current one then. -/
def Selects (clients : List HealthyClient) (current : Int32) : Prop :=
  ∃ d hc current', FirstAt (HealthyAt clients) clients.length current.toNatClampNeg d ∧
    clients[place clients.length current.toNatClampNeg d]? = some hc ∧
    getHealthyClient clients current = (.ok hc, current') ∧
    current'.toInt = place clients.length current.toNatClampNeg d

/-- There are as many candidates as healthy clients. -/
theorem length_candidates (clients : List HealthyClient) :
    (candidates clients).length = clients.countP HealthyClient.isHealthy := by
  rw [candidates, List.length_map, ← List.countP_eq_length_filter]
  conv_rhs => rw [← List.zipIdx_map_fst 0 clients, List.countP_map]
  rfl

theorem toInt_eq_toNatClampNeg {i : Int32} (h : 0 ≤ i) : i.toInt = i.toNatClampNeg :=
  (Int.toNat_of_nonneg (Int32.le_iff_toInt_le.1 h)).symm

/-- What the loop over as many offsets as there are candidates comes to. -/
theorem scan_candidates (hne : clients ≠ []) (h₀ : 0 ≤ current) (m : ℕ) :
    scan clients current.toInt (List.range m) =
      .ok (((List.range m).find? fun d =>
        HealthyAt clients (place clients.length current.toNatClampNeg d)).bind fun d =>
          clients[place clients.length current.toNatClampNeg d]?.map fun hc =>
            (↑(place clients.length current.toNatClampNeg d), hc)) := by
  rw [toInt_eq_toNatClampNeg h₀, scan_eq hne]

/-- The first healthy client is chosen if it is among the first places, as many as there are
    healthy clients. -/
theorem getHealthyClient_of_lt (h₀ : 0 ≤ current)
    (hd : FirstAt (HealthyAt clients) clients.length current.toNatClampNeg d)
    (hlt : d < clients.countP HealthyClient.isHealthy) : ∃ hc,
      clients[place clients.length current.toNatClampNeg d]? = some hc ∧
      getHealthyClient clients current =
        (.ok hc, .ofInt (place clients.length current.toNatClampNeg d)) := by
  have hne : clients ≠ [] := by
    rintro rfl
    exact absurd hlt (Nat.not_lt_zero d)
  obtain ⟨hc, hget⟩ := exists_client hne current.toNatClampNeg d
  refine ⟨hc, hget, ?_⟩
  have hl := length_candidates clients
  rcases hcand : candidates clients with _ | ⟨first, rest⟩
  · rw [hcand] at hl
    exact absurd hlt (by rw [← hl]; exact Nat.not_lt_zero d)
  · rw [hcand] at hl
    simp only [getHealthyClient, hcand, hl, scan_candidates hne h₀,
      find?_range_eq_some.2 ⟨hd, hlt⟩, Option.bind_some, hget, Option.map_some]

/-- Otherwise the index stays where it is. -/
theorem getHealthyClient_of_ge (h₀ : 0 ≤ current)
    (hd : FirstAt (HealthyAt clients) clients.length current.toNatClampNeg d)
    (hge : clients.countP HealthyClient.isHealthy ≤ d) :
    (getHealthyClient clients current).2 = current := by
  have hl := length_candidates clients
  rcases hcand : candidates clients with _ | ⟨first, rest⟩
  · simp only [getHealthyClient, hcand]
  · rw [hcand] at hl
    have hne : clients ≠ [] := by
      rintro rfl
      exact absurd hcand nofun
    have hnone : (List.range (clients.countP HealthyClient.isHealthy)).find? (fun d =>
        HealthyAt clients (place clients.length current.toNatClampNeg d)) = none := by
      rcases hf : (List.range (clients.countP HealthyClient.isHealthy)).find? (fun d =>
        HealthyAt clients (place clients.length current.toNatClampNeg d)) with _ | e
      · rfl
      · obtain ⟨he, hlt⟩ := find?_range_eq_some.1 hf
        obtain rfl := hd.unique he
        exact absurd hlt (Nat.not_lt.2 hge)
    simp only [getHealthyClient, hcand, hl, scan_candidates hne h₀, hnone, Option.bind_none]

/-- The first healthy client from the current one on is chosen if and only if it is no farther
    away than there are healthy clients, and its index fits into 32 bits. -/
theorem getHealthyClient_iff (clients : List HealthyClient) (current : Int32) (h₀ : 0 ≤ current)
    (hh : ∃ hc ∈ clients, hc.isHealthy = true) : Selects clients current ↔
      ∃ d < clients.countP HealthyClient.isHealthy,
        FirstAt (HealthyAt clients) clients.length current.toNatClampNeg d ∧
        place clients.length current.toNatClampNeg d < 2 ^ 31 := by
  constructor
  · rintro ⟨d, hc, current', hd, hget, he, hi⟩
    have hfit : place clients.length current.toNatClampNeg d < 2 ^ 31 := by
      have := current'.toInt_lt
      omega
    rcases Nat.lt_or_ge d (clients.countP HealthyClient.isHealthy) with hlt | hge
    · exact ⟨d, hlt, hd, hfit⟩
    · -- The index has been left where it was, so the first healthy client is there.
      have hcur := getHealthyClient_of_ge h₀ hd hge
      rw [he] at hcur
      rw [show current' = current from hcur, toInt_eq_toNatClampNeg h₀, Nat.cast_inj] at hi
      have hpos : 0 < d := by
        obtain ⟨hc', hm, hh'⟩ := hh
        exact Nat.lt_of_lt_of_le (List.countP_pos_iff.2 ⟨hc', hm, hh'⟩) hge
      have hlen : 0 < clients.length := List.length_pos_of_mem (List.mem_of_getElem? hget)
      have hplace : place clients.length current.toNatClampNeg 0 =
          place clients.length current.toNatClampNeg d := by
        rw [place_zero (hi ▸ place_lt hlen)]
        exact hi
      exact absurd (hplace ▸ hd.prop) (hd.before 0 hpos)
  · rintro ⟨d, hlt, hd, hfit⟩
    obtain ⟨hc, hget, he⟩ := getHealthyClient_of_lt h₀ hd hlt
    exact ⟨d, hc, _, hd, hget, he, Int32.toInt_ofInt_of_le (by omega) (by omega)⟩

/-- A client with an endpoint, which answers or does not. -/
def clientAt (endpoint : String) (isHealthy : Bool) : HealthyClient :=
  { failedOnce with endpoint := endpoint, isHealthy := isHealthy }

theorem getHealthyClient_iff_two :
    Selects [clientAt "http://a" true, clientAt "http://b" true] 1 ↔
      ∃ d < 2, FirstAt (HealthyAt [clientAt "http://a" true, clientAt "http://b" true]) 2 1 d ∧
        place 2 1 d < 2 ^ 31 :=
  getHealthyClient_iff _ 1 (by decide) ⟨_, List.mem_cons_self, rfl⟩

/-- Four clients, the first and the last of which are healthy. -/
def fourClients : List HealthyClient :=
  [clientAt "http://a" true, clientAt "http://b" false, clientAt "http://c" false,
    clientAt "http://d" true]

/-- From the second client on, the last one is the first that is healthy, but the first of all
    is chosen. -/
theorem not_forall_selects : ¬∀ (clients : List HealthyClient) (current : Int32), 0 ≤ current →
    (∃ hc ∈ clients, hc.isHealthy = true) → Selects clients current := by
  intro h
  obtain ⟨d, hc, current', hd, hget, he, hi⟩ :=
    h fourClients 1 (by decide) ⟨_, List.mem_cons_self, rfl⟩
  cases he
  have hplace : place 4 1 d = 1 := Int.ofNat_inj.1 hi.symm
  have hp : HealthyAt fourClients (place 4 1 d) := hd.prop
  rw [hplace] at hp
  exact absurd hp (by decide)

end Sylph.Ethereum
