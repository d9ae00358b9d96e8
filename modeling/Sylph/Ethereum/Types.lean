import Sylph.Lib.Numbers
import Sylph.Lib.Hex

/-!
# The values of a node

The blocks, transactions, receipts and logs as the client of the node decodes them, with what
the service reads of them: a number of `hexutil.Big` is not negative, and a pointer may
be `nil` where a node may send `null`.

What is used of the packages they come from is in the fields of `Common` and `LondonSigner`,
with what is documented of it.
-/

namespace Sylph.Ethereum

open Lib

/-- `common.Hash` -/
abbrev Hash : Type := Bytes 32

/-- `common.Address` -/
abbrev Address : Type := Bytes 20

namespace Types

/-- `types.Log`, as far as the service reads it. -/
structure Log where
  address : Address
  topics : List Hash
  data : List UInt8
  index : UInt64
  txHash : Hash

/-- `types.Receipt`; logs are pointers, which may be `nil`. -/
structure Receipt where
  status : UInt64
  gasUsed : UInt64
  logs : List (Option Log)

/-- `types.ReceiptStatusSuccessful` -/
def receiptStatusSuccessful : UInt64 := 1

/-- The types of transactions, each with signatures of its own. -/
inductive TxType
  | legacy
  | accessList
  | dynamicFee
  | blob
  | setCode
  deriving DecidableEq

/-- `tx.RawSignatureValues()` -/
structure Signature where
  v : ℕ
  r : ℕ
  s : ℕ

/-- `types.Transaction`, as far as the service reads it. -/
structure Transaction where
  type : TxType
  hash : Hash
  /-- `tx.To()` -/
  toAddress : Option Address
  value : ℕ
  gas : UInt64
  gasPrice : ℕ
  nonce : UInt64
  data : List UInt8
  signature : Signature

/-- `types.Block`, as far as the service reads it. -/
structure Block where
  number : ℕ
  hash : Hash
  parentHash : Hash
  time : UInt64
  root : Hash
  txHash : Hash
  receiptHash : Hash
  coinbase : Address
  gasUsed : UInt64
  gasLimit : UInt64
  /-- Since the London fork. -/
  baseFee : Option ℕ
  difficulty : ℕ
  transactions : List Transaction

end Types

/-- The package `common`: texts stand for the bytes of hashes and addresses, and bytes are
    cropped from the left, or padded, to make hashes and addresses of them. -/
structure Common where
  /-- `Hash.Hex` -/
  hashHex : Hash → String
  /-- `Address.Hex` -/
  addressHex : Address → String
  hexToHash : String → Hash
  hexToAddress : String → Address
  bytesToHash : List UInt8 → Hash
  /-- `Hash.Big` -/
  hashBig : Hash → ℕ
  denotes_hashHex : ∀ h, Hex.Denotes (hashHex h) h.toList
  denotes_addressHex : ∀ a, Hex.Denotes (addressHex a) a.toList
  hexToHash_eq : ∀ text bytes, Hex.Denotes text bytes → hexToHash text = .fit 32 bytes
  hexToAddress_eq : ∀ text bytes, Hex.Denotes text bytes → hexToAddress text = .fit 20 bytes
  bytesToHash_eq : ∀ bytes, bytesToHash bytes = .fit 32 bytes
  hashBig_eq : ∀ h, hashBig h = Bytes.value h.toList

namespace Common

/-- The text of an address is not empty. -/
theorem addressHex_ne_empty (c : Common) (a : Address) : c.addressHex a ≠ "" := by
  intro h
  obtain ⟨cs, ht, -⟩ := c.denotes_addressHex a
  rw [h] at ht
  cases ht

/-- The texts have lower case letters only. -/
def lowerCase : Common where
  hashHex h := Hex.write h.toList
  addressHex a := Hex.write a.toList
  hexToHash text := .fit 32 ((Hex.read (text.toList.drop 2)).getD [])
  hexToAddress text := .fit 20 ((Hex.read (text.toList.drop 2)).getD [])
  bytesToHash := .fit 32
  hashBig h := Bytes.value h.toList
  denotes_hashHex h := Hex.denotes_write _
  denotes_addressHex a := Hex.denotes_write _
  hexToHash_eq := by
    rintro text bytes ⟨cs, ht, hr⟩
    rw [ht, List.drop_succ_cons, List.drop_succ_cons, List.drop_zero, hr, Option.getD_some]
  hexToAddress_eq := by
    rintro text bytes ⟨cs, ht, hr⟩
    rw [ht, List.drop_succ_cons, List.drop_succ_cons, List.drop_zero, hr, Option.getD_some]
  bytesToHash_eq _ := rfl
  hashBig_eq _ := rfl

end Common

/-- The types of transactions there were at the London fork. -/
def Types.TxType.London : Types.TxType → Prop
  | legacy | accessList | dynamicFee => True
  | blob | setCode => False

instance : DecidablePred Types.TxType.London := fun t =>
  match t with
  | .legacy | .accessList | .dynamicFee => isTrue trivial
  | .blob | .setCode => isFalse id

/-- `types.NewLondonSigner(chainID)`, which knows the types of that fork. -/
structure LondonSigner where
  /-- `types.Sender(signer, tx)`: an address, and an error. -/
  sender : Types.Transaction → Address × Option String
  /-- The address the signature of a transaction is recovered to, if it is valid. -/
  recover : Types.Transaction → Option Address
  sender_of_some : ∀ tx a, tx.type.London → recover tx = some a → sender tx = (a, none)
  sender_of_none : ∀ tx, tx.type.London → recover tx = none → ∃ err, (sender tx).2 = some err
  sender_of_newer : ∀ tx, ¬tx.type.London → ∃ err, sender tx = (.fit 20 [], some err)

/-- A signer for a chain on which all signatures are those of one address. -/
def LondonSigner.ofAddress (a : Address) : LondonSigner where
  sender tx := if tx.type.London then (a, none)
    else (.fit 20 [], some "transaction type not supported")
  recover _ := some a
  sender_of_some _ _ h ha := by
    rw [if_pos h, Option.some_inj.1 ha]
  sender_of_none _ _ h := by
    cases h
  sender_of_newer _ h := ⟨_, if_neg h⟩

end Sylph.Ethereum
