import Sylph.Lib.Codec

/-!
# Transactions of Solana

The transactions of the two versions a node is asked for, and their wire format. Both
versions start with the signatures. A legacy message (`Message`) follows as it is, a
message of version `0` (`MessageV0`) after a byte with the top bit set, which the first
byte of a legacy message, a number of signatures, does not have.

`Transaction` is the type of legacy transactions, the only ones it can hold.
-/

namespace Sylph.Solana

open Lib

/-- An array of `n` bytes. -/
abbrev Bytes (n : ℕ) := {l : List UInt8 // l.length = n}

/-- A list that fits in the wire format. -/
abbrev ShortVec (α : Type) := {l : List α // l.length < 2 ^ 16}

/-- An Ed25519 signature. -/
abbrev Signature := Bytes 64

/-- The address of an account or of a program. -/
abbrev Pubkey := Bytes 32

/-- A SHA-256 hash, here of a block. -/
abbrev Hash := Bytes 32

/-- How many of the first accounts sign, and which of them are only read. -/
structure MessageHeader where
  numRequiredSignatures : UInt8
  numReadonlySignedAccounts : UInt8
  numReadonlyUnsignedAccounts : UInt8

/-- An instruction; its program and accounts are indices into the account keys. -/
structure CompiledInstruction where
  programIdIndex : UInt8
  accounts : ShortVec UInt8
  data : ShortVec UInt8

/-- A legacy message. -/
structure Message where
  header : MessageHeader
  accountKeys : ShortVec Pubkey
  recentBlockhash : Hash
  instructions : ShortVec CompiledInstruction

/-- A legacy transaction. -/
structure Transaction where
  signatures : ShortVec Signature
  message : Message

/-- The accounts a message takes from an address lookup table. -/
structure MessageAddressTableLookup where
  accountKey : Pubkey
  writableIndexes : ShortVec UInt8
  readonlyIndexes : ShortVec UInt8

/-- A message of version `0`. -/
structure MessageV0 where
  header : MessageHeader
  accountKeys : ShortVec Pubkey
  recentBlockhash : Hash
  instructions : ShortVec CompiledInstruction
  addressTableLookups : ShortVec MessageAddressTableLookup

/-- A message, in one of the two formats of the wire. -/
inductive VersionedMessage
  | legacy (message : Message)
  | v0 (message : MessageV0)

/-- A signed transaction of either version. -/
structure VersionedTransaction where
  signatures : ShortVec Signature
  message : VersionedMessage
  signed : signatures.1 ≠ []

namespace VersionedMessage

/-- Whether the message has no version byte. -/
def isLegacy : VersionedMessage → Bool
  | legacy _ => true
  | v0 _ => false

/-- The header, of either format. -/
def header : VersionedMessage → MessageHeader
  | legacy m => m.header
  | v0 m => m.header

/-- The static account keys, of either format. -/
def accountKeys : VersionedMessage → ShortVec Pubkey
  | legacy m => m.accountKeys
  | v0 m => m.accountKeys

/-- The recent block hash, of either format. -/
def recentBlockhash : VersionedMessage → Hash
  | legacy m => m.recentBlockhash
  | v0 m => m.recentBlockhash

/-- The instructions, of either format. -/
def instructions : VersionedMessage → ShortVec CompiledInstruction
  | legacy m => m.instructions
  | v0 m => m.instructions

end VersionedMessage

/-! ## The wire format -/

/-- Thirty-two bytes, for keys and hashes alike. -/
def keyCodec : Codec (Bytes 32) := Codec.byte.fixed 32

/-- The signatures come first, with their number. -/
def signaturesCodec : Codec (ShortVec Signature) := (Codec.byte.fixed 64).shortVec

/-- The three bytes of a header. -/
def headerCodec : Codec MessageHeader :=
  (Codec.byte.pair (Codec.byte.pair Codec.byte)).imap {
    toFun h := (h.numRequiredSignatures, h.numReadonlySignedAccounts, h.numReadonlyUnsignedAccounts)
    invFun x := ⟨x.1, x.2.1, x.2.2⟩ }

/-- An instruction: a byte, and two arrays with their lengths. -/
def instructionCodec : Codec CompiledInstruction :=
  (Codec.byte.pair (Codec.byte.shortVec.pair Codec.byte.shortVec)).imap {
    toFun i := (i.programIdIndex, i.accounts, i.data)
    invFun x := ⟨x.1, x.2.1, x.2.2⟩ }

/-- A legacy message, field after field. -/
def messageCodec : Codec Message :=
  (headerCodec.pair (keyCodec.shortVec.pair (keyCodec.pair instructionCodec.shortVec))).imap {
    toFun m := (m.header, m.accountKeys, m.recentBlockhash, m.instructions)
    invFun x := ⟨x.1, x.2.1, x.2.2.1, x.2.2.2⟩ }

/-- A legacy transaction, as `bincode` writes and reads it. -/
def transactionCodec : Codec Transaction :=
  (signaturesCodec.pair messageCodec).imap {
    toFun t := (t.signatures, t.message)
    invFun x := ⟨x.1, x.2⟩ }

/-- A lookup: the address of the table, and two arrays of indices. -/
def lookupCodec : Codec MessageAddressTableLookup :=
  (keyCodec.pair (Codec.byte.shortVec.pair Codec.byte.shortVec)).imap {
    toFun l := (l.accountKey, l.writableIndexes, l.readonlyIndexes)
    invFun x := ⟨x.1, x.2.1, x.2.2⟩ }

/-- A message of version 0, after its version byte. -/
def messageV0Codec : Codec MessageV0 :=
  (headerCodec.pair (keyCodec.shortVec.pair (keyCodec.pair
    (instructionCodec.shortVec.pair lookupCodec.shortVec)))).imap {
    toFun m := (m.header, m.accountKeys, m.recentBlockhash, m.instructions, m.addressTableLookups)
    invFun x := ⟨x.1, x.2.1, x.2.2.1, x.2.2.2.1, x.2.2.2.2⟩ }

/-- The bytes of a message: a version is announced by the highest bit of the first one. -/
def VersionedMessage.serialize : VersionedMessage → List UInt8
  | legacy m => messageCodec.encode m
  | v0 m => 0x80 :: messageV0Codec.encode m

/-- The bytes of a transaction, as the node returns them. -/
def VersionedTransaction.serialize (t : VersionedTransaction) : List UInt8 :=
  signaturesCodec.encode t.signatures ++ t.message.serialize

theorem encode_key (key : Pubkey) : keyCodec.encode key = key.1 := Codec.encodeAll_byte key.1

section Encode

variable (a b c : UInt8) (keys : ShortVec Pubkey) (hash : Hash)
  (ins : ShortVec CompiledInstruction) (lookups : ShortVec MessageAddressTableLookup)

theorem encode_message : messageCodec.encode ⟨⟨a, b, c⟩, keys, hash, ins⟩ =
    a :: b :: c :: (Codec.encodeLength keys.1.length ++ (keyCodec.encodeAll keys.1 ++
      (keyCodec.encode hash ++ instructionCodec.shortVec.encode ins))) := by
  rw [← List.append_assoc]
  rfl

theorem encode_messageV0 : messageV0Codec.encode ⟨⟨a, b, c⟩, keys, hash, ins, lookups⟩ =
    a :: b :: c :: (Codec.encodeLength keys.1.length ++ (keyCodec.encodeAll keys.1 ++
      (keyCodec.encode hash ++ (instructionCodec.shortVec.encode ins ++
        lookupCodec.shortVec.encode lookups)))) := by
  rw [← List.append_assoc]
  rfl

end Encode

/-- A message of version `0`, read as a legacy one, is not read as it is: some of its
    header or of its account keys differ. -/
theorem ne_of_encode_eq {m : Message} {m₀ : MessageV0} {rest : List UInt8}
    (h : messageCodec.encode m ++ rest = 0x80 :: messageV0Codec.encode m₀) :
    ¬(m.header = m₀.header ∧ m.accountKeys = m₀.accountKeys) := by
  rintro ⟨hh, hk⟩
  obtain ⟨⟨a, b, c⟩, keys, hash, ins⟩ := m
  obtain ⟨header, keys₀, hash₀, ins₀, lookups⟩ := m₀
  obtain rfl : (⟨a, b, c⟩ : MessageHeader) = header := hh
  obtain rfl : keys = keys₀ := hk
  -- The prefix moves the header by one byte, so that its last byte is in front of the
  -- account keys.
  rw [encode_message, encode_messageV0, List.cons_append, List.cons_append, List.cons_append] at h
  obtain ⟨rfl, h⟩ := List.cons.inj h
  obtain ⟨rfl, h⟩ := List.cons.inj h
  obtain ⟨rfl, h⟩ := List.cons.inj h
  rw [List.append_assoc] at h
  exact Codec.encodeLength_append_ne keys.2 _ _ h

/-- A message of version `0` may be read as a legacy one: with all accounts writable that
    do not sign, and a first account key that ends in a zero byte, as one without account
    keys and instructions. -/
theorem exists_encode_eq {m : MessageV0} {key : List UInt8} {keys : List Pubkey}
    (hkey : (key ++ [0]).length = 32) (hk : m.accountKeys.1 = ⟨key ++ [0], hkey⟩ :: keys)
    (hlen : m.accountKeys.1.length < 2 ^ 7) (hr : m.header.numReadonlyUnsignedAccounts = 0) :
    ∃ m' rest, 0x80 :: messageV0Codec.encode m = messageCodec.encode m' ++ rest ∧
      m'.accountKeys.1 = [] ∧ m'.instructions.1 = [] := by
  obtain ⟨⟨a, b, c⟩, keys₀, hash, ins, lookups⟩ := m
  obtain rfl : c = 0 := hr
  have hlen' : (.ofNat keys₀.1.length :: key).length = 32 := by
    rw [List.length_append] at hkey
    exact hkey
  -- The byte of zero in front of the account keys is read as their number, and their number
  -- as the first byte of the hash, whose place ends where the first key has its last byte.
  refine ⟨⟨⟨0x80, a, b⟩, ⟨[], by decide⟩, ⟨.ofNat keys₀.1.length :: key, hlen'⟩, ⟨[], by decide⟩⟩,
    keyCodec.encodeAll keys ++ (keyCodec.encode hash ++ (instructionCodec.shortVec.encode ins ++
      lookupCodec.shortVec.encode lookups)), ?_, rfl, rfl⟩
  have hk : keys₀.1 = ⟨key ++ [0], hkey⟩ :: keys := hk
  rw [encode_message, encode_messageV0, Codec.encodeLength, if_pos hlen, hk, Codec.encodeAll,
    List.flatMap_cons]
  simp only [encode_key, List.append_assoc, List.cons_append, List.nil_append]
  rfl

end Sylph.Solana
