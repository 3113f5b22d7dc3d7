import OpenGsn.Solidity.Abi

/-! Hashing of typed structured data, version 4, for structs of atomic and struct members. -/

namespace OpenGsn.Eip712

open Solidity

structure Member where
  name : String
  type : String
  deriving DecidableEq, Repr

abbrev Types := List (String × List Member)

inductive Value : Type
  | uint256 (n : ℕ)
  | address (account : Address)
  | bytes (contents : Bytes)
  | string (text : String)
  | struct (fields : List (String × Value))

/-- The struct types that `type` is made of, itself first. Every call adds a type to `found`,
so that `fuel` for the number of types is enough. -/
def dependencies (types : Types) : ℕ → List String → String → List String
  | 0, found, _ => found
  | fuel + 1, found, type =>
      match types.lookup type with
      | none => found
      | some members =>
          if type ∈ found then found
          else members.foldl (fun found member => dependencies types fuel found member.type)
            (found ++ [type])

def encodeStruct (types : Types) (type : String) : String :=
  let members := (types.lookup type).getD []
  type ++ "(" ++ ",".intercalate (members.map fun member => member.type ++ " " ++ member.name) ++ ")"

/-- The type itself, and behind it the types it refers to, sorted by name. -/
def encodeType (types : Types) (primary : String) : String :=
  let referred := (dependencies types (types.length + 1) [] primary).erase primary
  String.join ((primary :: referred.mergeSort fun first second => decide (first ≤ second)).map
    (encodeStruct types))

variable (crypto : Crypto) (types : Types)

mutual
def Value.encode : Value → String → Option Bytes
  | .uint256 n, type => if type = "uint256" then some (word n) else none
  | .address account, type => if type = "address" then some (word account.val) else none
  | .bytes contents, type => if type = "bytes" then some (crypto.hashBytes contents) else none
  | .string text, type => if type = "string" then some (crypto.hashBytes (utf8 text)) else none
  | .struct fields, type =>
      let encoders := encodeFields fields
      (types.lookup type).bind fun members =>
      (members.mapM fun member =>
        (encoders.lookup member.name).bind fun encoder => encoder member.type).map fun words =>
      crypto.hashBytes (crypto.hashBytes (utf8 (encodeType types type)) ++ words.flatten)
def encodeFields : List (String × Value) → List (String × (String → Option Bytes))
  | [] => []
  | (name, value) :: rest => (name, value.encode) :: encodeFields rest
end

@[simp] theorem encode_uint256 (n : ℕ) : (Value.uint256 n).encode crypto types "uint256" = some (word n) := by
  simp [Value.encode]

@[simp] theorem encode_address (account : Address) :
    (Value.address account).encode crypto types "address" = some (word account.val) := by
  simp [Value.encode]

@[simp] theorem encode_bytes (contents : Bytes) :
    (Value.bytes contents).encode crypto types "bytes" = some (crypto.hashBytes contents) := by
  simp [Value.encode]

@[simp] theorem encode_string (text : String) :
    (Value.string text).encode crypto types "string" = some (crypto.hashBytes (utf8 text)) := by
  simp [Value.encode]

def hashStruct (primary : String) (fields : List (String × Value)) : Option Bytes :=
  (Value.struct fields).encode crypto types primary

structure TypedMessage where
  types : Types
  domain : List (String × Value)
  primaryType : String
  message : List (String × Value)

def digest (typed : TypedMessage) : Option Uint256 :=
  (hashStruct crypto typed.types "EIP712Domain" typed.domain).bind fun domain =>
  (hashStruct crypto typed.types typed.primaryType typed.message).map fun message =>
  crypto.keccak256 ([0x19, 0x01] ++ domain ++ message)

theorem lookup_encodeFields (fields : List (String × Value)) (name : String) :
    (encodeFields crypto types fields).lookup name =
      (fields.lookup name).map (Value.encode crypto types) := by
  induction fields with
  | nil => rfl
  | cons field rest ih =>
      obtain ⟨first, value⟩ := field
      by_cases same : name == first
      · simp [encodeFields, List.lookup_cons, same]
      · simp [encodeFields, List.lookup_cons, same, ih]

theorem mapM_eq_some {α β : Type} (f : α → Option β) (list : List α) (results : List β)
    (each : list.map f = results.map some) : list.mapM f = some results := by
  induction list generalizing results with
  | nil =>
      obtain rfl := List.map_eq_nil_iff.mp each.symm
      rfl
  | cons first rest ih =>
      cases results with
      | nil => cases each
      | cons result results =>
          obtain ⟨head, tail⟩ := List.cons.inj each
          rw [List.mapM_cons, head, ih results tail]
          rfl

def memberWord (fields : List (String × Value)) (member : Member) : Option Bytes :=
  (fields.lookup member.name).bind fun value => value.encode crypto types member.type

theorem hashStruct_eq (primary : String) (fields : List (String × Value)) (members : List Member)
    (words : List Bytes) (declared : types.lookup primary = some members)
    (encoded : members.map (memberWord crypto types fields) = words.map some) :
    hashStruct crypto types primary fields =
      some (crypto.hashBytes (crypto.hashBytes (utf8 (encodeType types primary)) ++ words.flatten)) := by
  have looked : ∀ member : Member,
      (((encodeFields crypto types fields).lookup member.name).bind fun encoder => encoder member.type) =
        memberWord crypto types fields member := by
    intro member
    rw [lookup_encodeFields, memberWord]
    cases fields.lookup member.name <;> rfl
  have all := mapM_eq_some (memberWord crypto types fields) members words encoded
  rw [hashStruct, Value.encode, declared, Option.bind_some]
  simp only [looked, all, Option.map_some]

example : encodeType [("Mail", [⟨"sender", "Person"⟩, ⟨"text", "string"⟩]),
    ("Person", [⟨"name", "string"⟩])] "Mail" =
    "Mail(Person sender,string text)Person(string name)" := by decide +kernel

end OpenGsn.Eip712
