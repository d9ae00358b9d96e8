import Sylph.Lib.Except
import Sylph.Solana.Base58
import Sylph.Solana.Client

/-!
# What is made of the transactions of a node

`convertTransactions` reads all transactions as legacy ones. It is faithful to a list of
transactions (`Faithful`) exactly if there is no other in it (`faithful_iff`). One of
version `0` is refused or read as another transaction, which may well be one without any
account (`exists_convertTransaction_shifted`).
-/

namespace Sylph.Solana

open Lib

/-- The transaction as a node sends it. -/
def VersionedTransaction.toBinary {Meta : Type} (t : VersionedTransaction)
    (statusMeta : Option Meta) : EncodedTransactionWithStatusMeta Meta where
  transaction := .binary (Base64.encode t.serialize) .base64
  statusMeta := statusMeta

section Conversion

variable {Meta : Type} (d : Decoders Meta) (slot : UInt64)

/-- `e` has what `t` has. -/
structure Same (t : VersionedTransaction) (e : EnrichedTransaction Meta) : Prop where
  signature : e.signature = d.showSignature (t.signatures.1.head t.signed)
  signatures : e.transaction.signatures = t.signatures
  header : e.transaction.message.header = t.message.header
  accountKeys : e.transaction.message.accountKeys = t.message.accountKeys
  recentBlockhash : e.transaction.message.recentBlockhash = t.message.recentBlockhash
  instructions : e.transaction.message.instructions = t.message.instructions

/-- All transactions are converted, in their order, each to one that has what it has. -/
def Faithful (txs : List (VersionedTransaction × Option Meta)) : Prop :=
  ∃ es, convertTransactions d slot (some (txs.map fun x => x.1.toBinary x.2)) = .ok es ∧
    List.Forall₂ (fun x e => Same d x.1 e) txs es

variable {d slot} {t : VersionedTransaction} {statusMeta : Option Meta}
  {e : EnrichedTransaction Meta}

/-- Bytes that start with a signed legacy transaction are converted to it. -/
theorem convertTransaction_eq {tx : Transaction} {rest : List UInt8}
    (h : t.serialize = transactionCodec.encode tx ++ rest) (hs : tx.signatures.1 ≠ []) :
    convertTransaction d slot (t.toBinary statusMeta) = .ok {
      signature := d.showSignature (tx.signatures.1.head hs)
      slot := slot
      error := statusMeta.bind d.showError
      statusMeta := statusMeta
      transaction := tx } := by
  have hd : decodeTransaction d (t.toBinary statusMeta).transaction =
      .ok (d.showSignature (tx.signatures.1.head hs), tx) := by
    rw [VersionedTransaction.toBinary, decodeTransaction, d.base64_encode, h]
    simp only [Except.mapError, Except.bind, bind, d.deserialize_encode,
      List.head?_eq_some_head hs]
  rw [convertTransaction, hd]
  rfl

/-- What a transaction is converted to is in front of its bytes. -/
theorem serialize_of_convertTransaction
    (h : convertTransaction d slot (t.toBinary statusMeta) = .ok e) :
    ∃ rest, t.serialize = transactionCodec.encode e.transaction ++ rest := by
  obtain ⟨x, hx, rfl⟩ := Except.map_eq_ok.1 h
  change decodeTransaction d (.binary (Base64.encode t.serialize) .base64) = .ok x at hx
  rw [decodeTransaction] at hx
  obtain ⟨bytes, hb, hx⟩ := Except.bind_eq_ok.1 hx
  obtain ⟨tx, hd, hx⟩ := Except.bind_eq_ok.1 hx
  rw [Except.mapError_eq_ok, d.base64_encode, Except.ok.injEq] at hb
  rw [Except.mapError_eq_ok, ← hb] at hd
  split at hx
  · cases hx
    exact d.encode_of_deserialize hd
  · exact absurd hx nofun

theorem convertTransaction_iff :
    (∃ e, convertTransaction d slot (t.toBinary statusMeta) = .ok e ∧ Same d t e) ↔
      t.message.isLegacy = true := by
  obtain ⟨signatures, message, signed⟩ := t
  rcases message with m | m
  · have hm : (⟨signatures, .legacy m, signed⟩ : VersionedTransaction).serialize =
        transactionCodec.encode ⟨signatures, m⟩ ++ [] := (List.append_nil _).symm
    exact ⟨fun _ => rfl,
      fun _ => ⟨_, convertTransaction_eq hm signed, rfl, rfl, rfl, rfl, rfl, rfl⟩⟩
  · refine ⟨fun ⟨e, he, hsame⟩ => ?_, fun h => absurd h nofun⟩
    obtain ⟨rest, hrest⟩ := serialize_of_convertTransaction he
    change signaturesCodec.encode signatures ++ (0x80 :: messageV0Codec.encode m) =
      (signaturesCodec.encode e.transaction.signatures ++
        messageCodec.encode e.transaction.message) ++
        rest at hrest
    rw [List.append_assoc] at hrest
    obtain ⟨-, hmsg⟩ := signaturesCodec.append_inj hrest
    exact absurd ⟨hsame.header, hsame.accountKeys⟩ (ne_of_encode_eq hmsg.symm)

theorem faithful_iff_forall {txs : List (VersionedTransaction × Option Meta)} :
    Faithful d slot txs ↔
      ∀ x ∈ txs, ∃ e, convertTransaction d slot (x.1.toBinary x.2) = .ok e ∧ Same d x.1 e := by
  rw [Faithful, convertTransactions, List.mapM_map, ← Except.mapM_iff]
  rfl

/-- A transaction of version `0` may be converted to one that has other contents: with all
    accounts writable that do not sign, and a first account key that ends in a zero byte,
    it is one without account keys and instructions. -/
theorem exists_convertTransaction_shifted {m : MessageV0} {key : List UInt8} {keys : List Pubkey}
    (hm : t.message = .v0 m) (hkey : (key ++ [0]).length = 32)
    (hk : m.accountKeys.1 = ⟨key ++ [0], hkey⟩ :: keys) (hlen : m.accountKeys.1.length < 2 ^ 7)
    (hr : m.header.numReadonlyUnsignedAccounts = 0) :
    ∃ e, convertTransaction d slot (t.toBinary statusMeta) = .ok e ∧
      e.transaction.message.accountKeys.1 = [] ∧ e.transaction.message.instructions.1 = [] := by
  obtain ⟨m', rest, henc, hkeys, hins⟩ := exists_encode_eq hkey hk hlen hr
  have hser : t.serialize = transactionCodec.encode ⟨t.signatures, m'⟩ ++ rest := by
    rw [VersionedTransaction.serialize, hm, VersionedMessage.serialize, henc, ← List.append_assoc]
    rfl
  exact ⟨_, convertTransaction_eq hser t.signed, hkeys, hins⟩

end Conversion

/-! ## The packages -/

/-- Packages that do what is documented of those in use. -/
def Decoders.reference : Decoders (Option String) where
  base64 s := match Base64.decode s with
    | some bytes => .ok bytes
    | none => .error "Invalid padding"
  base64_encode bytes := by rw [Base64.decode_encode]
  deserialize bytes := match transactionCodec.parse bytes with
    | some x => .ok x.1
    | none => .error "io error: unexpected end of file"
  deserialize_encode tx rest := by rw [transactionCodec.parse_encode]
  encode_of_deserialize {bytes tx} h := by
    rcases hp : transactionCodec.parse bytes with _ | ⟨tx', rest⟩
    · rw [hp] at h
      exact absurd h nofun
    · rw [hp] at h
      cases h
      exact ⟨rest, transactionCodec.encode_of_parse hp⟩
  showSignature s := base58 s.1
  showError := id

/-! ## Lists of transactions -/

/-- The transactions of a block are converted faithfully exactly if all are legacy ones. -/
theorem faithful_iff {Meta : Type} (d : Decoders Meta) (slot : UInt64)
    (txs : List (VersionedTransaction × Option Meta)) :
    Faithful d slot txs ↔ ∀ x ∈ txs, x.1.message.isLegacy = true := by
  rw [faithful_iff_forall]
  exact forall₂_congr fun x _ => convertTransaction_iff

/-- A transaction of version `0` without instructions, whose account key ends in a zero
    byte. -/
def emptyTransaction : VersionedTransaction where
  signatures := ⟨[⟨List.replicate 64 1, rfl⟩], by decide⟩
  message := .v0 {
    header := ⟨1, 0, 0⟩
    accountKeys := ⟨[⟨List.replicate 31 7 ++ [0], rfl⟩], by decide⟩
    recentBlockhash := ⟨List.replicate 32 9, rfl⟩
    instructions := ⟨[], by decide⟩
    addressTableLookups := ⟨[], by decide⟩ }
  signed := nofun

/-- It is among what the client asks for, and is converted to a transaction without its
    account key. -/
theorem not_forall_faithful : ¬∀ (Meta : Type) (d : Decoders Meta) (config : RpcConfig)
    (slot : UInt64) (txs : List (VersionedTransaction × Option Meta)),
    (∀ x ∈ txs, (defaultBlockConfig config).Requests x.1.message) → Faithful d slot txs := by
  intro h
  have hall := faithful_iff_forall.1 (h _ .reference .default 0 [(emptyTransaction, none)]
    fun x _ => requests_defaultBlockConfig _ x.1.message)
  obtain ⟨e, he, hsame⟩ := hall _ (List.mem_singleton_self _)
  have hshifted : ∃ e, convertTransaction .reference 0 (emptyTransaction.toBinary none) = .ok e ∧
      e.transaction.message.accountKeys.1 = [] ∧ e.transaction.message.instructions.1 = [] :=
    exists_convertTransaction_shifted rfl rfl rfl (by decide) rfl
  obtain ⟨e', he', hkeys, -⟩ := hshifted
  cases he.symm.trans he'
  rw [hsame.accountKeys] at hkeys
  exact absurd hkeys nofun

end Sylph.Solana
