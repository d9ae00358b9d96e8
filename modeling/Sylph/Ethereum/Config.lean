import Mathlib.Algebra.Order.Ring.Int
import Sylph.Lib.Separated

/-!
# The configuration of the Ethereum service

What the service reads from its environment (`Config.load`), and what it makes sure of
(`Config.validate`).

* `parseEndpoints_spec`: the endpoints are read as they are if they are joined by commas, and what
  is read always looks like that.
* `validate_load_default`: the endpoints by default are valid.

An environment is a function: a variable that is not set is empty.
-/

namespace Sylph.Ethereum

open Lib Separated

/-- `DefaultEnv` -/
def defaultEnv : String := "development"
/-- `DefaultPort` -/
def defaultPort : Int64 := 50051
/-- `DefaultLogLevel` -/
def defaultLogLevel : String := "info"

/-- In seconds. -/
def defaultHealthCheckInterval : Int64 := 30

/-- The configuration, read from the environment. -/
structure Config where
  env : String
  grpcServerPort : Int64
  logLevel : String
  httpEndpoints : List String
  wsEndpoints : List String
  healthCheckInterval : Int64

/-! ## The environment -/

/-- `unicode.IsSpace` -/
def isSpace (c : Char) : Bool :=
  c.val ∈ [9, 10, 11, 12, 13, 32, 0x85, 0xA0, 0x1680, 0x2028, 0x2029, 0x202F, 0x205F, 0x3000] ||
    (0x2000 ≤ c.val && c.val ≤ 0x200A)

/-- The number that decimal digits stand for, if they are, on 64 bits. -/
def parseDigits (negative : Bool) (digits : List Char) : Option Int64 :=
  if digits ≠ [] ∧ digits.all Char.isDigit then
    let n : ℤ := if negative then -Nat.ofDigitChars 10 digits 0 else Nat.ofDigitChars 10 digits 0
    if -2 ^ 63 ≤ n ∧ n < 2 ^ 63 then some (.ofInt n) else none
  else none

/-- `strconv.Atoi` -/
def atoi (s : String) : Option Int64 :=
  match s.toList with
  | '-' :: digits => parseDigits true digits
  | '+' :: digits => parseDigits false digits
  | digits => parseDigits false digits

/-- A variable, unless it is empty. -/
def getEnv (env : String → String) (key defaultValue : String) : String :=
  if env key ≠ "" then env key else defaultValue

/-- A variable that is a number. -/
def getEnvInt (env : String → String) (key : String) (defaultValue : Int64) : Int64 :=
  if env key ≠ "" then (atoi (env key)).getD defaultValue else defaultValue

/-- The endpoint for a kind of network, by the kind of environment. -/
def defaultEndpoints (env : String → String) (netType : String) : String :=
  if env "SYLPH_ETH_ENV" = "production" then
    if netType = "http" then "https://eth-mainnet.g.alchemy.com/v2/"
    else "wss://eth-mainnet.g.alchemy.com/v2/"
  else
    netType ++ "://localhost:8545"

/-- The endpoints between commas, without the space around them. -/
def parseEndpoints (input : String) : List String :=
  if input = "" then [] else (fields ',' isSpace input.toList).map String.ofList

/-- `Load` -/
def Config.load (env : String → String) : Config where
  env := getEnv env "SYLPH_ETH_ENV" defaultEnv
  grpcServerPort := getEnvInt env "SYLPH_ETH_PORT" defaultPort
  logLevel := getEnv env "SYLPH_ETH_LOG_LEVEL" defaultLogLevel
  httpEndpoints :=
    parseEndpoints (getEnv env "SYLPH_ETH_HTTP_ENDPOINTS" (defaultEndpoints env "http"))
  wsEndpoints :=
    parseEndpoints (getEnv env "SYLPH_ETH_WS_ENDPOINTS" (defaultEndpoints env "ws"))
  healthCheckInterval :=
    getEnvInt env "SYLPH_ETH_HEALTH_CHECK_INTERVAL" defaultHealthCheckInterval

/-- `strings.HasPrefix` -/
def hasPrefix (s pre : String) : Bool := pre.toList.isPrefixOf s.toList

/-- The protocol of an endpoint is one of those of HTTP. -/
def isHTTP (ep : String) : Bool := hasPrefix ep "http://" || hasPrefix ep "https://"

/-- The error in a list of endpoints, if there is one. -/
def validateEndpoints (endpoints : List String) : Option String :=
  if endpoints.length = 0 then some "At least one endpoint"
  else (endpoints.find? fun ep => !isHTTP ep).map fun ep => "Invalid endpoint protocol: " ++ ep

/-- The endpoints for websockets are not looked at. -/
def Config.validate (c : Config) : Option String := validateEndpoints c.httpEndpoints

/-! ## Endpoints -/

/-- A text that can be read as an endpoint: it is not empty, has no comma, and neither begins nor
    ends with a blank. -/
def IsEndpoint (ep : String) : Prop := IsField ',' isSpace ep.toList

/-- The endpoints, separated by commas. -/
def joinEndpoints (endpoints : List String) : String :=
  .ofList ([','].intercalate (endpoints.map String.toList))

theorem isEndpoint_of_mem_parseEndpoints {input ep : String} (h : ep ∈ parseEndpoints input) :
    IsEndpoint ep := by
  rw [parseEndpoints] at h
  split_ifs at h
  · exact absurd h List.not_mem_nil
  · obtain ⟨w, hw, rfl⟩ := List.mem_map.1 h
    rw [IsEndpoint, String.toList_ofList]
    exact isField_of_mem_fields hw

theorem parseEndpoints_join {endpoints : List String} (h : ∀ ep ∈ endpoints, IsEndpoint ep) :
    parseEndpoints (joinEndpoints endpoints) = endpoints := by
  have hf : fields ',' isSpace (joinEndpoints endpoints).toList =
      endpoints.map String.toList := by
    rw [joinEndpoints, String.toList_ofList]
    exact fields_intercalate (List.forall_mem_map.2 h)
  have hback : (endpoints.map String.toList).map String.ofList = endpoints := by
    rw [List.map_map]
    conv_rhs => rw [← List.map_id endpoints]
    exact List.map_congr_left fun ep _ => String.ofList_toList
  rw [parseEndpoints]
  split_ifs with he
  · -- Only no endpoints at all are joined to the empty text.
    rw [he] at hf
    rw [← hback, ← hf]
    rfl
  · rw [hf, hback]

/-- What is read is always endpoints, and any endpoints are read as they are. -/
theorem parseEndpoints_spec : (∀ input, ∀ ep ∈ parseEndpoints input, IsEndpoint ep) ∧
    ∀ endpoints, (∀ ep ∈ endpoints, IsEndpoint ep) →
      parseEndpoints (joinEndpoints endpoints) = endpoints :=
  ⟨fun _ _ h => isEndpoint_of_mem_parseEndpoints h, fun _ h => parseEndpoints_join h⟩

theorem parseEndpoints_spec_two :
    parseEndpoints " http://a , http://b,," = ["http://a", "http://b"] ∧
    parseEndpoints (joinEndpoints ["http://a", "http://b"]) = ["http://a", "http://b"] := by
  have hp : parseEndpoints " http://a , http://b,," = ["http://a", "http://b"] := by decide
  refine ⟨hp, parseEndpoints_spec.2 _ ?_⟩
  rw [← hp]
  exact parseEndpoints_spec.1 _

/-! ## Validity -/

theorem validateEndpoints_eq_none {endpoints : List String} :
    validateEndpoints endpoints = none ↔
      endpoints ≠ [] ∧ ∀ ep ∈ endpoints, isHTTP ep = true := by
  rw [validateEndpoints]
  split_ifs with h
  · exact iff_of_false id fun hv => hv.1 (List.eq_nil_of_length_eq_zero h)
  · rw [Option.map_eq_none_iff, List.find?_eq_none]
    simp only [Bool.not_eq_true, Bool.not_eq_false']
    exact ⟨fun hv => ⟨fun he => h (by rw [he]; rfl), hv⟩, fun hv => hv.2⟩

/-- Without endpoints in the environment, the configuration is valid. -/
theorem validate_load_default {env : String → String} (h : env "SYLPH_ETH_HTTP_ENDPOINTS" = "") :
    (Config.load env).validate = none := by
  have hd : getEnv env "SYLPH_ETH_HTTP_ENDPOINTS" (defaultEndpoints env "http") =
      defaultEndpoints env "http" := if_neg (not_not.2 h)
  change validateEndpoints (parseEndpoints (getEnv env "SYLPH_ETH_HTTP_ENDPOINTS" _)) = none
  rw [hd, defaultEndpoints, if_pos rfl]
  split_ifs
  · decide
  · decide

end Sylph.Ethereum
