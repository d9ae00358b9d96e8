import Sylph.Ethereum.Config
import Sylph.Ethereum.Selection
import Sylph.Lib.Except

/-!
# The start of the Ethereum service

What `main` does before the service answers calls: it reads the configuration, dials all
endpoints, and asks for the chain. What it meets on the way is in `Outside`.

* `starts_iff`: whether it gets there, and with which clients: those for HTTP have been checked,
  those for websockets have not, unless by a periodic check.
* `unavailable_iff`: so calls find a client, and subscriptions do not, until the periodic checks
  find another state of things (`Checked`).

The ticker of the periodic checks is started by `NewClient`. Its first tick, after 30 seconds,
comes after the checks of `initializeClients`, which time out after 5, but it may come before all
clients have been asked for the chain, each for up to 10 seconds: `Outside.early` has the checks
that end by then.
-/

namespace Sylph.Ethereum

open Lib Go

/-- The check of a client is over: the clients for HTTP are checked all at once, then those for
    websockets, each in its own time. -/
inductive Checked
  | http (i : ℕ) (p : Probe)
  | ws (i : ℕ) (p : Probe)

/-- The client of a place is checked. -/
def checkAt (clients : List HealthyClient) (x : ℕ × Probe) : List HealthyClient :=
  clients.modify x.1 fun hc => hc.check x.2

/-- A periodic check of a client ends. -/
def Client.checked (c : Client) : Checked → Client
  | .http i p => { c with httpClients := checkAt c.httpClients (i, p) }
  | .ws i p => { c with wsClients := checkAt c.wsClients (i, p) }

/-- What the start of the service meets. -/
structure Outside where
  env : String → String
  /-- The flag `port`, 50051 by default. -/
  portOverride : Int64
  /-- The errors of `ethclient.DialContext`, of the endpoints for HTTP and for websockets. -/
  dialHTTP : ℕ → Option String
  dialWS : ℕ → Option String
  /-- The first checks of the clients for HTTP. -/
  probe : ℕ → Probe
  /-- `ethclient.Client.ChainID`, of the clients for HTTP. -/
  chainID : ℕ → Except String ℕ
  /-- The periodic checks that are over before the service serves. -/
  early : List Checked
  /-- The error of `net.Listen`. -/
  listen : Int64 → Option String

/-- A client that has been dialled. -/
def newHealthyClient (endpoint : String) : HealthyClient where
  endpoint := endpoint
  isHealthy := false
  lastCheck := 0
  latency := 0
  failureCount := 0
  successCount := 0

/-- An endpoint is dialled, with an error or not. -/
def dial (net : String) (err : Option String) (endpoint : String) : Except String HealthyClient :=
  match err with
  | some err => .error s!"failed to dial {net} endpoint {endpoint}: {err}"
  | none => .ok (newHealthyClient endpoint)

/-- The endpoints are dialled, up to the first failure. -/
def dialAll (net : String) (errs : ℕ → Option String) (endpoints : List String) :
    Except String (List HealthyClient) :=
  endpoints.zipIdx.mapM fun x => dial net (errs x.2) x.1

/-- `NewClient`, which starts the goroutine of the periodic checks, too. -/
def newClient (o : Outside) (httpEndpoints wsEndpoints : List String) : Except String Client := do
  let httpClients ← dialAll "HTTP" o.dialHTTP httpEndpoints
  let wsClients ← dialAll "WS" o.dialWS wsEndpoints
  if httpClients.length = 0 then
    throw "no valid HTTP endpoints provided"
  return ⟨httpClients, 0, wsClients, 0⟩

namespace Client

/-- All clients for HTTP are checked, unless the first one is known to be healthy. -/
def initializeClients (probe : ℕ → Probe) (c : Client) : Except String Client :=
  if c.httpClients.head?.any HealthyClient.isHealthy then
    .ok c
  else
    let httpClients := (checkClientsHealth c.httpClients probe).map Prod.snd
    if httpClients.any HealthyClient.isHealthy then .ok { c with httpClients := httpClients }
    else .error "no healthy clients available after initialization"

/-- An error that is `nil`, formatted. -/
def noError : String := "%!w(<nil>)"

/-- The clients are asked in order, healthy or not, up to the first answer. -/
def askChainID (chainID : ℕ → Except String ℕ) : List ℕ → String → Except String ℕ
  | [], lastErr => .error s!"failed to get chain ID from any client: {lastErr}"
  | i :: rest, _ =>
    match chainID i with
    | .ok id => .ok id
    | .error err => askChainID chainID rest err

/-- The chain of the first client that answers, once one of them is healthy. -/
def chainID (o : Outside) (c : Client) : Except String (ℕ × Client) := do
  let c ← (c.initializeClients o.probe).mapError fun err =>
    s!"failed to initialize clients: {err}"
  let id ← askChainID o.chainID (List.range c.httpClients.length) noError
  -- The clients are shared with the goroutine of the periodic checks.
  return (id, o.early.foldl checked c)

end Client

/-- The service, as it starts to serve. -/
structure EthereumService where
  client : Client
  chainID : ℕ
  port : Int64

/-- `NewEthereumService` -/
def newEthereumService (o : Outside) (client : Client) : Except String (ℕ × Client) :=
  (client.chainID o).mapError fun err => s!"failed to get chain ID: {err}"

/-- The port that the service listens at. -/
def Outside.port (o : Outside) : Int64 :=
  if o.portOverride > 0 then o.portOverride else (Config.load o.env).grpcServerPort

/-- `main`, up to `grpcServer.Serve`, or to what it logs before it exits. -/
def main (o : Outside) : Except String EthereumService := do
  let cfg := Config.load o.env
  match cfg.validate with
  | some err => throw s!"Invalid config: {err}"
  | none =>
    let client ← (newClient o cfg.httpEndpoints cfg.wsEndpoints).mapError fun err =>
      s!"Failed to create Ethereum rpc client: {err}"
    let (chainID, client) ← (newEthereumService o client).mapError fun err =>
      s!"Failed to create Ethereum service: {err}"
    match o.listen o.port with
    | some err => throw s!"gRPC failed to listen on: {err}"
    | none => return ⟨client, chainID, o.port⟩

/-! ## What the parts come to -/

theorem dial_eq_ok {net : String} {err : Option String} {endpoint : String} {hc : HealthyClient} :
    dial net err endpoint = .ok hc ↔ err = none ∧ newHealthyClient endpoint = hc := by
  rcases err with _ | err
  · exact ⟨fun h => ⟨rfl, Except.ok.inj h⟩, fun h => congrArg _ h.2⟩
  · exact ⟨fun h => absurd h nofun, fun h => absurd h.1 (Option.some_ne_none err)⟩

/-- All endpoints are dialled, if none of them fails. -/
theorem dialAll_eq_ok {net : String} {errs : ℕ → Option String} {endpoints : List String}
    {clients : List HealthyClient} : dialAll net errs endpoints = .ok clients ↔
      (∀ i < endpoints.length, errs i = none) ∧ clients = endpoints.map newHealthyClient := by
  have hex : (∃ cs, dialAll net errs endpoints = .ok cs) ↔
      ∀ i < endpoints.length, errs i = none := by
    rw [dialAll, Except.exists_mapM_iff]
    constructor
    · intro h i hi
      have hm : (endpoints[i], i) ∈ endpoints.zipIdx :=
        List.mem_zipIdx_iff_getElem?.2 (List.getElem?_eq_getElem hi)
      obtain ⟨hc, h⟩ := h _ hm
      exact (dial_eq_ok.1 h).1
    · rintro h ⟨endpoint, i⟩ hm
      have hi := (List.getElem?_eq_some_iff.1 (List.mem_zipIdx_iff_getElem?.1 hm)).1
      exact ⟨_, dial_eq_ok.2 ⟨h i hi, rfl⟩⟩
  have hval : ∀ cs, dialAll net errs endpoints = .ok cs → cs = endpoints.map newHealthyClient := by
    intro cs h
    have hmap := Except.map_eq_of_mapM (g := fun x => newHealthyClient x.1) (k := id) h
      fun x _ hc hx => (dial_eq_ok.1 hx).2
    have hfst : endpoints.zipIdx.map (newHealthyClient ∘ Prod.fst) =
        endpoints.map newHealthyClient := by
      rw [← List.map_map, List.zipIdx_map_fst]
    rw [List.map_id] at hmap
    exact hmap.symm.trans hfst
  constructor
  · exact fun h => ⟨hex.1 ⟨clients, h⟩, hval clients h⟩
  · rintro ⟨h, rfl⟩
    obtain ⟨cs, hcs⟩ := hex.2 h
    rw [hcs, hval cs hcs]

theorem newClient_eq_ok {o : Outside} {httpEndpoints wsEndpoints : List String} {c : Client} :
    newClient o httpEndpoints wsEndpoints = .ok c ↔
      (∀ i < httpEndpoints.length, o.dialHTTP i = none) ∧
      (∀ i < wsEndpoints.length, o.dialWS i = none) ∧ httpEndpoints ≠ [] ∧
      c = ⟨httpEndpoints.map newHealthyClient, 0, wsEndpoints.map newHealthyClient, 0⟩ := by
  rw [newClient, Except.bind_eq_ok]
  constructor
  · rintro ⟨http, hh, h⟩
    obtain ⟨ws, hw, h⟩ := Except.bind_eq_ok.1 h
    obtain ⟨hhttp, rfl⟩ := dialAll_eq_ok.1 hh
    obtain ⟨hws, rfl⟩ := dialAll_eq_ok.1 hw
    rw [List.length_map] at h
    split at h
    · cases h
    · next hne =>
      cases h
      exact ⟨hhttp, hws, fun he => hne (by rw [he]; rfl), rfl⟩
  · rintro ⟨hh, hw, hne, rfl⟩
    refine ⟨_, dialAll_eq_ok.2 ⟨hh, rfl⟩, Except.bind_eq_ok.2 ⟨_, dialAll_eq_ok.2 ⟨hw, rfl⟩, ?_⟩⟩
    rw [List.length_map, if_neg (List.length_pos_of_ne_nil hne).ne']
    rfl

namespace Client

/-- A check finds whether the client answers. -/
theorem isHealthy_check (hc : HealthyClient) (p : Probe) :
    (hc.check p).isHealthy = p.err.isNone := by
  rw [HealthyClient.check]
  rcases p.err with _ | err <;> rfl

/-- The clients after a check of all of them. -/
theorem getElem?_checkClientsHealth (clients : List HealthyClient) (probe : ℕ → Probe) (i : ℕ) :
    ((checkClientsHealth clients probe).map Prod.snd)[i]? =
      clients[i]?.map fun hc => hc.check (probe i) := by
  rw [List.getElem?_map, checkClientsHealth, List.getElem?_mapIdx, Option.map_map]
  rfl

theorem length_checkClientsHealth (clients : List HealthyClient) (probe : ℕ → Probe) :
    ((checkClientsHealth clients probe).map Prod.snd).length = clients.length := by
  rw [List.length_map, checkClientsHealth, List.length_mapIdx]

theorem any_isHealthy_iff {clients : List HealthyClient} {probe : ℕ → Probe} :
    ((checkClientsHealth clients probe).map Prod.snd).any HealthyClient.isHealthy = true ↔
      ∃ i < clients.length, (probe i).err = none := by
  rw [List.any_eq_true]
  constructor
  · rintro ⟨hc, hm, hh⟩
    obtain ⟨i, hi⟩ := List.mem_iff_getElem?.1 hm
    rw [getElem?_checkClientsHealth] at hi
    obtain ⟨hc', hi', rfl⟩ := Option.map_eq_some_iff.1 hi
    rw [isHealthy_check] at hh
    exact ⟨i, (List.getElem?_eq_some_iff.1 hi').1, Option.isNone_iff_eq_none.1 hh⟩
  · rintro ⟨i, hi, hp⟩
    refine ⟨clients[i].check (probe i), List.mem_iff_getElem?.2 ⟨i, ?_⟩, ?_⟩
    · rw [getElem?_checkClientsHealth, List.getElem?_eq_getElem hi]
      rfl
    · rw [isHealthy_check, hp]
      rfl

/-- Clients that have just been dialled are checked. -/
theorem initializeClients_eq_ok {probe : ℕ → Probe} {endpoints : List String} {c c' : Client}
    (hc : c.httpClients = endpoints.map newHealthyClient) :
    c.initializeClients probe = .ok c' ↔ (∃ i < endpoints.length, (probe i).err = none) ∧
      c' = { c with httpClients := (checkClientsHealth c.httpClients probe).map Prod.snd } := by
  have hnot : c.httpClients.head?.any HealthyClient.isHealthy = false := by
    rw [hc]
    rcases endpoints with _ | ⟨endpoint, endpoints⟩ <;> rfl
  have hlen : c.httpClients.length = endpoints.length := by rw [hc, List.length_map]
  rw [initializeClients, hnot, if_neg Bool.false_ne_true, ← hlen, ← any_isHealthy_iff]
  simp only
  split_ifs with h
  · exact ⟨fun he => ⟨h, (Except.ok.inj he).symm⟩, fun he => congrArg _ he.2.symm⟩
  · exact ⟨fun he => absurd he nofun, fun he => absurd he.1 h⟩

/-- The first client that answers says which chain it is. -/
theorem exists_askChainID_iff {chainID : ℕ → Except String ℕ} {is : List ℕ} {lastErr : String} :
    (∃ id, askChainID chainID is lastErr = .ok id) ↔ ∃ i ∈ is, ∃ id, chainID i = .ok id := by
  induction is generalizing lastErr with
  | nil => exact ⟨fun ⟨_, h⟩ => absurd h nofun, fun ⟨_, h, _⟩ => absurd h List.not_mem_nil⟩
  | cons i is ih =>
    rw [askChainID]
    rcases hi : chainID i with err | id
    · simp only [ih, List.mem_cons, exists_eq_or_imp, hi, reduceCtorEq, exists_false, false_or]
    · exact ⟨fun _ => ⟨i, List.mem_cons_self, id, hi⟩, fun _ => ⟨id, rfl⟩⟩

end Client

/-! ## Serving -/

/-- What the service needs to serve. -/
structure Starts (o : Outside) : Prop where
  endpoints : (Config.load o.env).httpEndpoints ≠ [] ∧
    ∀ ep ∈ (Config.load o.env).httpEndpoints, isHTTP ep = true
  dialHTTP : ∀ i < (Config.load o.env).httpEndpoints.length, o.dialHTTP i = none
  dialWS : ∀ i < (Config.load o.env).wsEndpoints.length, o.dialWS i = none
  healthy : ∃ i < (Config.load o.env).httpEndpoints.length, (o.probe i).err = none
  chainID : ∃ i < (Config.load o.env).httpEndpoints.length, ∃ id, o.chainID i = .ok id
  listen : o.listen o.port = none

/-- The clients after the first checks. -/
def Outside.initialized (o : Outside) : Client where
  httpClients := (checkClientsHealth ((Config.load o.env).httpEndpoints.map newHealthyClient)
    o.probe).map Prod.snd
  current := 0
  wsClients := (Config.load o.env).wsEndpoints.map newHealthyClient
  wsCurrent := 0

/-- The clients when the service starts to serve. -/
def Outside.client (o : Outside) : Client :=
  o.early.foldl Client.checked o.initialized

/-- The service is made once there is a client that answers, and a chain. -/
theorem newEthereumService_eq_ok {o : Outside} {id : ℕ} {c c' : Client}
    (hc : c.httpClients = (Config.load o.env).httpEndpoints.map newHealthyClient) :
    newEthereumService o c = .ok (id, c') ↔
      (∃ i < (Config.load o.env).httpEndpoints.length, (o.probe i).err = none) ∧
      c' = o.early.foldl Client.checked
        { c with httpClients := (checkClientsHealth c.httpClients o.probe).map Prod.snd } ∧
      Client.askChainID o.chainID (List.range (Config.load o.env).httpEndpoints.length)
        Client.noError = .ok id := by
  have hlen : ((checkClientsHealth c.httpClients o.probe).map Prod.snd).length =
      (Config.load o.env).httpEndpoints.length := by
    rw [Client.length_checkClientsHealth, hc, List.length_map]
  rw [newEthereumService, Except.mapError_eq_ok, Client.chainID, Except.bind_eq_ok]
  constructor
  · rintro ⟨c₁, h₁, h⟩
    obtain ⟨hp, rfl⟩ := (Client.initializeClients_eq_ok hc).1 (Except.mapError_eq_ok.1 h₁)
    obtain ⟨id', hid, h⟩ := Except.bind_eq_ok.1 h
    cases h
    exact ⟨hp, rfl, hlen ▸ hid⟩
  · rintro ⟨hp, rfl, hid⟩
    exact ⟨_, Except.mapError_eq_ok.2 ((Client.initializeClients_eq_ok hc).2 ⟨hp, rfl⟩),
      Except.bind_eq_ok.2 ⟨id, hlen.symm ▸ hid, rfl⟩⟩

/-- The service starts with what has been checked on the way. -/
theorem main_eq_ok {o : Outside} {s : EthereumService} : main o = .ok s ↔
    (Config.load o.env).validate = none ∧
    ∃ c c', newClient o (Config.load o.env).httpEndpoints (Config.load o.env).wsEndpoints = .ok c ∧
      newEthereumService o c = .ok (s.chainID, c') ∧ o.listen o.port = none ∧
      s.client = c' ∧ s.port = o.port := by
  rw [main]
  rcases hv : (Config.load o.env).validate with _ | err
  · simp only [true_and]
    rw [Except.bind_eq_ok]
    constructor
    · rintro ⟨c, hc, h⟩
      obtain ⟨⟨id, c'⟩, hs, h⟩ := Except.bind_eq_ok.1 h
      rcases hl : o.listen o.port with _ | err
      · simp only [hl] at h
        cases h
        exact ⟨c, c', Except.mapError_eq_ok.1 hc, Except.mapError_eq_ok.1 hs, rfl, rfl, rfl⟩
      · simp only [hl] at h
        cases h
    · rintro ⟨c, c', hc, hs, hl, hclient, hport⟩
      refine ⟨c, Except.mapError_eq_ok.2 hc,
        Except.bind_eq_ok.2 ⟨(s.chainID, c'), Except.mapError_eq_ok.2 hs, ?_⟩⟩
      simp only [hl]
      rw [← hclient, ← hport]
      rfl
  · exact ⟨fun h => absurd h nofun, fun h => absurd h.1 (Option.some_ne_none err)⟩

theorem starts_of_main {o : Outside} {s : EthereumService} (h : main o = .ok s) : Starts o := by
  obtain ⟨hv, c, c', hc, hs, hl, -⟩ := main_eq_ok.1 h
  obtain ⟨hh, hw, hne, rfl⟩ := newClient_eq_ok.1 hc
  obtain ⟨hp, rfl, hid⟩ := (newEthereumService_eq_ok rfl).1 hs
  obtain ⟨i, hi, hchain⟩ := Client.exists_askChainID_iff.1 ⟨_, hid⟩
  exact ⟨validateEndpoints_eq_none.1 hv, hh, hw, hp, ⟨i, List.mem_range.1 hi, hchain⟩, hl⟩

theorem exists_main {o : Outside} (h : Starts o) : ∃ s, main o = .ok s := by
  obtain ⟨hv, hh, hw, hp, ⟨i, hi, hchain⟩, hl⟩ := h
  obtain ⟨id, hid⟩ := Client.exists_askChainID_iff.2 ⟨i, List.mem_range.2 hi, hchain⟩
  exact ⟨⟨o.client, id, o.port⟩, main_eq_ok.2 ⟨validateEndpoints_eq_none.2 hv, _, o.client,
    newClient_eq_ok.2 ⟨hh, hw, hv.1, rfl⟩,
    (newEthereumService_eq_ok rfl).2 ⟨hp, rfl, hid⟩, hl, rfl, rfl⟩⟩

theorem client_of_main {o : Outside} {s : EthereumService} (h : main o = .ok s) :
    s.client = o.client ∧ s.port = o.port := by
  obtain ⟨hv, c, c', hc, hs, hl, hclient, hport⟩ := main_eq_ok.1 h
  obtain ⟨-, -, -, rfl⟩ := newClient_eq_ok.1 hc
  obtain ⟨-, rfl, -⟩ := (newEthereumService_eq_ok rfl).1 hs
  exact ⟨hclient, hport⟩

/-- Whether the service starts, and the clients and the port it starts with: the clients are as the
    first checks, and those of `early`, have left them. -/
theorem starts_iff (o : Outside) : ((∃ s, main o = .ok s) ↔ Starts o) ∧
    ∀ s, main o = .ok s → s.client = o.client ∧ s.port = o.port :=
  ⟨⟨fun ⟨_, h⟩ => starts_of_main h, exists_main⟩, fun _ h => client_of_main h⟩

/-- The service with its defaults, on a machine with a node. -/
def localhost : Outside where
  env _ := ""
  portOverride := 50051
  dialHTTP _ := none
  dialWS _ := none
  probe _ := ⟨none, 1, 0⟩
  chainID _ := .ok 1
  early := []
  listen _ := none

theorem httpEndpoints_localhost :
    (Config.load localhost.env).httpEndpoints = ["http://localhost:8545"] := by
  decide

theorem wsEndpoints_localhost :
    (Config.load localhost.env).wsEndpoints = ["ws://localhost:8545"] := by
  decide

theorem starts_localhost : Starts localhost where
  endpoints := by
    rw [httpEndpoints_localhost]
    decide
  dialHTTP _ _ := rfl
  dialWS _ _ := rfl
  healthy := ⟨0, by rw [httpEndpoints_localhost]; exact Nat.one_pos, rfl⟩
  chainID := ⟨0, by rw [httpEndpoints_localhost]; exact Nat.one_pos, 1, rfl⟩
  listen := rfl

theorem starts_iff_localhost : ∃ s, main localhost = .ok s ∧ s.client = localhost.client ∧
    s.port = 50051 := by
  obtain ⟨s, hs⟩ := (starts_iff localhost).1.2 starts_localhost
  exact ⟨s, hs, (starts_iff localhost).2 s hs⟩

/-! ## Health -/

/-- The check, if it is one of a client for HTTP. -/
def Checked.http? : Checked → Option (ℕ × Probe)
  | .http i p => some (i, p)
  | .ws .. => none

/-- The check, if it is one of a client for websockets. -/
def Checked.ws? : Checked → Option (ℕ × Probe)
  | .http .. => none
  | .ws i p => some (i, p)

/-- What the checks of a place have met. -/
def probesAt (i : ℕ) (checks : List (ℕ × Probe)) : List Probe :=
  (checks.filter fun x => x.1 = i).map Prod.snd

theorem checked_foldl (c : Client) (events : List Checked) :
    (events.foldl Client.checked c).httpClients =
      (events.filterMap Checked.http?).foldl checkAt c.httpClients ∧
    (events.foldl Client.checked c).wsClients =
      (events.filterMap Checked.ws?).foldl checkAt c.wsClients := by
  induction events generalizing c with
  | nil => exact ⟨rfl, rfl⟩
  | cons event events ih =>
    rcases event with ⟨i, p⟩ | ⟨i, p⟩
    · exact ih (c.checked (.http i p))
    · exact ih (c.checked (.ws i p))

/-- A client is what its own checks have made of it. -/
theorem getElem?_foldl_checkAt (clients : List HealthyClient) (checks : List (ℕ × Probe)) (i : ℕ) :
    (checks.foldl checkAt clients)[i]? =
      clients[i]?.map fun hc => (probesAt i checks).foldl HealthyClient.check hc := by
  induction checks generalizing clients with
  | nil => simp [probesAt]
  | cons x checks ih =>
    rw [List.foldl_cons, ih, checkAt, List.getElem?_modify, Option.map_eq_map, Option.map_map,
      probesAt, probesAt, List.filter_cons]
    by_cases hx : x.1 = i
    · simp only [hx, decide_true, if_true, List.map_cons, List.foldl_cons]
      rfl
    · simp only [hx, decide_false, if_false, Bool.false_eq_true]
      rfl

/-- Its health is what the last of them has found. -/
theorem isHealthy_foldl (hc : HealthyClient) (ps : List Probe) :
    (ps.foldl HealthyClient.check hc).isHealthy =
      match ps.getLast? with
      | none => hc.isHealthy
      | some p => p.err.isNone := by
  rcases ps.eq_nil_or_concat with rfl | ⟨ps, p, rfl⟩
  · rfl
  · rw [List.concat_eq_append, List.foldl_append, List.foldl_cons, List.foldl_nil,
      Client.isHealthy_check, List.getLast?_append]
    rfl

/-- The search for a healthy client does not return an error of its own. -/
theorem not_errs_scan (clients : List HealthyClient) (cur : ℤ) (offsets : List ℕ) :
    ¬Errs (scan clients cur offsets) := by
  induction offsets with
  | nil => exact not_errs_ok _
  | cons offset offsets ih =>
    refine not_errs_bind (not_errs_index _ _) fun hc => ?_
    split
    · exact not_errs_ok _
    · exact ih

theorem mem_candidates {clients : List HealthyClient} {i : ℕ} :
    i ∈ candidates clients ↔ HealthyAt clients i := by
  rw [candidates, List.mem_map]
  constructor
  · rintro ⟨⟨hc, j⟩, hm, rfl⟩
    obtain ⟨hm, hh⟩ := List.mem_filter.1 hm
    exact (healthyAt_iff (List.mem_zipIdx_iff_getElem?.1 hm)).2 hh
  · intro h
    rcases hi : clients[i]? with _ | hc
    · rw [HealthyAt, hi] at h
      exact absurd h Bool.false_ne_true
    · exact ⟨(hc, i), List.mem_filter.2 ⟨List.mem_zipIdx_iff_getElem?.2 hi,
        (healthyAt_iff hi).1 h⟩, rfl⟩

/-- There is no client to choose if and only if none is healthy. -/
theorem getHealthyClient_errs_iff (clients : List HealthyClient) (current : Int32) :
    Errs (getHealthyClient clients current).1 ↔ ∀ i, ¬HealthyAt clients i := by
  rcases hcand : candidates clients with _ | ⟨first, rest⟩
  · simp only [getHealthyClient, hcand]
    refine iff_of_true ⟨_, rfl⟩ fun i hi => ?_
    have hm := mem_candidates.2 hi
    rw [hcand] at hm
    exact absurd hm List.not_mem_nil
  · refine iff_of_false ?_ fun h => h first (mem_candidates.1 (hcand ▸ List.mem_cons_self))
    simp only [getHealthyClient, hcand]
    split
    · exact not_errs_ok _
    · exact not_errs_index _ _
    · next fault hs =>
      rintro ⟨text, he⟩
      exact not_errs_scan _ _ _ ⟨text, hs.trans (congrArg _ (Except.error.inj he))⟩

/-- No client is healthy after some checks if and only if each has failed its last one, or has not
    been checked and has not been healthy. -/
theorem forall_not_healthyAt_iff (clients : List HealthyClient) (checks : List (ℕ × Probe)) :
    (∀ i, ¬HealthyAt (checks.foldl checkAt clients) i) ↔ ∀ i hc, clients[i]? = some hc →
      match (probesAt i checks).getLast? with
      | none => hc.isHealthy = false
      | some p => p.err ≠ none := by
  refine forall_congr' fun i => ?_
  rw [HealthyAt, getElem?_foldl_checkAt]
  rcases clients[i]? with _ | hc
  · exact iff_of_true Bool.false_ne_true fun hc h => absurd h.symm (Option.some_ne_none hc)
  · simp only [Option.map_some, Option.any_some, isHealthy_foldl, Option.some.injEq,
      forall_eq']
    rcases (probesAt i checks).getLast? with _ | p
    · exact Bool.not_eq_true _ ▸ Iff.rfl
    · simp only [Option.isNone_iff_eq_none, ne_eq]

/-- Of clients that are made for endpoints, no one can be chosen if and only if each has failed its
    last check, or has not had one and has not been healthy before. -/
theorem errs_foldl_checkAt_iff {endpoints : List String} {clients : List HealthyClient}
    {healthy : ℕ → Bool} (hclients : ∀ i, clients[i]?.map HealthyClient.isHealthy =
      endpoints[i]?.map fun _ => healthy i) (checks : List (ℕ × Probe)) (current : Int32) :
    Errs (getHealthyClient (checks.foldl checkAt clients) current).1 ↔
      ∀ i < endpoints.length,
        match (probesAt i checks).getLast? with
        | none => healthy i = false
        | some p => p.err ≠ none := by
  rw [getHealthyClient_errs_iff, forall_not_healthyAt_iff]
  constructor
  · intro hall i hi
    have hget := hclients i
    rw [List.getElem?_eq_getElem hi] at hget
    obtain ⟨hc, hsome, hh⟩ := Option.map_eq_some_iff.1 hget
    have hlast := hall i hc hsome
    rwa [hh] at hlast
  · intro hall i hc hsome
    have hget := hclients i
    rw [hsome] at hget
    obtain ⟨ep, hep, hh⟩ := Option.map_eq_some_iff.1 hget.symm
    have hlast := hall i (List.getElem?_eq_some_iff.1 hep).1
    rwa [hh] at hlast

/-- After the start, calls find no client if and only if the last check of each client for HTTP
    has failed, the one at the start being the first. Subscriptions find none if and only if each
    client for websockets has failed its last check, or has not had one. -/
theorem unavailable_iff {o : Outside} {s : EthereumService} (h : main o = .ok s)
    (events : List Checked) :
    (Errs (events.foldl Client.checked s.client).currentClient.1 ↔
      ∀ i < (Config.load o.env).httpEndpoints.length,
        ((probesAt i ((o.early ++ events).filterMap Checked.http?)).getLast?.getD
          (o.probe i)).err ≠ none) ∧
    (Errs (events.foldl Client.checked s.client).wsClient.1 ↔
      ∀ i < (Config.load o.env).wsEndpoints.length,
        ∀ p, (probesAt i ((o.early ++ events).filterMap Checked.ws?)).getLast? = some p →
          p.err ≠ none) := by
  obtain ⟨hclient, -⟩ := client_of_main h
  have hfold : events.foldl Client.checked s.client =
      (o.early ++ events).foldl Client.checked o.initialized := by
    rw [hclient, Outside.client, List.foldl_append]
  obtain ⟨hhttp, hws⟩ := checked_foldl o.initialized (o.early ++ events)
  have hget : ∀ i, o.initialized.httpClients[i]?.map HealthyClient.isHealthy =
      (Config.load o.env).httpEndpoints[i]?.map fun _ => (o.probe i).err.isNone := fun i => by
    rw [Outside.initialized, Client.getElem?_checkClientsHealth, List.getElem?_map, Option.map_map,
      Option.map_map]
    exact congrFun (congrArg Option.map (funext fun _ => Client.isHealthy_check _ _)) _
  have hget' : ∀ i, o.initialized.wsClients[i]?.map HealthyClient.isHealthy =
      (Config.load o.env).wsEndpoints[i]?.map fun _ => false := fun i => by
    rw [Outside.initialized, List.getElem?_map, Option.map_map]
    rfl
  rw [Client.currentClient, Client.wsClient, hfold, hhttp, hws, errs_foldl_checkAt_iff hget,
    errs_foldl_checkAt_iff hget']
  constructor
  · refine forall₂_congr fun i _ => ?_
    rcases (probesAt i ((o.early ++ events).filterMap Checked.http?)).getLast? with _ | p
    · -- The check at the start is the last one.
      simp only [Option.getD_none, Option.isNone_eq_false_iff, Option.isSome_iff_ne_none]
    · exact Iff.rfl
  · refine forall₂_congr fun i _ => ?_
    rcases (probesAt i ((o.early ++ events).filterMap Checked.ws?)).getLast? with _ | p
    · -- A client that has not been checked is not healthy.
      exact iff_of_true rfl fun _ hp => absurd hp nofun
    · simp

/-- The node goes down, but its websocket is up; then all is well, until the websocket is lost. -/
def outage : List Checked :=
  [.http 0 ⟨some "connection refused", 1, 30⟩, .ws 0 ⟨none, 4, 30⟩,
    .http 0 ⟨none, 2, 62⟩, .ws 0 ⟨some "timeout", 5000, 65⟩]

/-- Before the first periodic check, calls find a client, and subscriptions find none; after two
    checks it is the other way round, and in the end again as before. -/
theorem unavailable_localhost : ∃ s, main localhost = .ok s ∧
    (¬Errs s.client.currentClient.1 ∧ Errs s.client.wsClient.1) ∧
    (Errs ((outage.take 2).foldl Client.checked s.client).currentClient.1 ∧
      ¬Errs ((outage.take 2).foldl Client.checked s.client).wsClient.1) ∧
    ¬Errs (outage.foldl Client.checked s.client).currentClient.1 ∧
      Errs (outage.foldl Client.checked s.client).wsClient.1 := by
  obtain ⟨s, hs⟩ := exists_main starts_localhost
  obtain ⟨hhttp, hws⟩ := unavailable_iff hs []
  obtain ⟨hhttp₂, hws₂⟩ := unavailable_iff hs (outage.take 2)
  obtain ⟨hhttp₄, hws₄⟩ := unavailable_iff hs outage
  rw [httpEndpoints_localhost] at hhttp hhttp₂ hhttp₄
  rw [wsEndpoints_localhost] at hws hws₂ hws₄
  refine ⟨s, hs, ⟨fun he => ?_, hws.2 ?_⟩, ⟨hhttp₂.2 ?_, fun he => ?_⟩, fun he => ?_, hws₄.2 ?_⟩
  · exact hhttp.1 he 0 Nat.one_pos rfl
  · exact fun i _ p hp => absurd hp nofun
  · intro i hi
    obtain rfl : i = 0 := Nat.lt_one_iff.1 hi
    exact Option.some_ne_none _
  · exact hws₂.1 he 0 Nat.one_pos _ rfl rfl
  · exact hhttp₄.1 he 0 Nat.one_pos rfl
  · intro i hi p hp
    obtain rfl : i = 0 := Nat.lt_one_iff.1 hi
    cases hp
    exact Option.some_ne_none _

end Sylph.Ethereum
