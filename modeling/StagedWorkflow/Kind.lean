import StagedWorkflow.Datum
/-!
# Kinds of values

The kinds of values a store can hold. A scalar kind has values of its own;
a value of kind `store` is a store, given by its number. Each kind has a
name, which errors and listings show; no two kinds share one
(`Kind.name_injective`), and none is called like the explicit nil
(`Kind.name_ne_nilName`).
-/

namespace StagedWorkflow

/-- The kinds whose values do not change. -/
inductive Scalar where
  | bool | unit
  | int8 | int16 | int32 | int64 | int128 | intSize
  | uint8 | uint16 | uint32 | uint64 | uint128 | uintSize
  | float | char | text | slice
  | texts | numbers | bytes | rows
  | textOption | numberOption | pair
  deriving DecidableEq, Inhabited

namespace Scalar

/-- The values of a scalar kind. A float is given by its 64 bits. -/
abbrev Carrier : Scalar → Type
  | bool => Bool
  | unit => Unit
  | int8 => Int8
  | int16 => Int16
  | int32 => Int32
  | int64 | intSize => Int64
  | int128 => BitVec 128
  | uint8 => UInt8
  | uint16 => UInt16
  | uint32 => UInt32
  | uint64 | uintSize => UInt64
  | uint128 => BitVec 128
  | float => UInt64
  | char => Char
  | text | slice => String
  | texts => List String
  | numbers => List Int32
  | bytes => List UInt8
  | rows => List (List Int32)
  | textOption => Option String
  | numberOption => Option Int32
  | pair => Int32 × String

/-- The name of a scalar kind. -/
def name : Scalar → String
  | bool => "bool"
  | unit => "()"
  | int8 => "i8"
  | int16 => "i16"
  | int32 => "i32"
  | int64 => "i64"
  | int128 => "i128"
  | intSize => "isize"
  | uint8 => "u8"
  | uint16 => "u16"
  | uint32 => "u32"
  | uint64 => "u64"
  | uint128 => "u128"
  | uintSize => "usize"
  | float => "f64"
  | char => "char"
  | text => "alloc::string::String"
  | slice => "&str"
  | texts => "alloc::vec::Vec<alloc::string::String>"
  | numbers => "alloc::vec::Vec<i32>"
  | bytes => "alloc::vec::Vec<u8>"
  | rows => "alloc::vec::Vec<alloc::vec::Vec<i32>>"
  | textOption => "core::option::Option<alloc::string::String>"
  | numberOption => "core::option::Option<i32>"
  | pair => "(i32, alloc::string::String)"

/-- The bits of a float, as sixteen hexadecimal digits. -/
def hexDigits (bits : UInt64) : String :=
  let digits := Nat.toDigits 16 bits.toNat
  String.ofList (List.replicate (16 - digits.length) '0' ++ digits)

/-- A value in plain form. The widest integers are written out as text. -/
def datum : (s : Scalar) → s.Carrier → Datum
  | bool, x => .truth x
  | unit, _ => .null
  | int8, x => .number x.toInt
  | int16, x => .number x.toInt
  | int32, x => .number x.toInt
  | int64, x | intSize, x => .text (toString x.toInt)
  | int128, x => .text (toString x.toInt)
  | uint8, x => .count x.toNat
  | uint16, x => .count x.toNat
  | uint32, x => .count x.toNat
  | uint64, x | uintSize, x => .text (toString x.toNat)
  | uint128, x => .text (toString x.toNat)
  | float, x => .text (hexDigits x)
  | char, x => .text (String.singleton x)
  | text, x | slice, x => .text x
  | texts, x => .texts x
  | numbers, x => .list (x.map fun n => .number n.toInt)
  | bytes, x => .list (x.map fun n => .count n.toNat)
  | rows, x => .list (x.map fun row => .list (row.map fun n => .number n.toInt))
  | textOption, x => .textOrNull x
  | numberOption, x => (x.map fun n : Int32 => Datum.number n.toInt).getD .null
  | pair, x => .list [.number x.1.toInt, .text x.2]

end Scalar

/-- The number of a store. -/
abbrev StoreId := Nat

/-- The kinds of values. -/
inductive Kind where
  | scalar (s : Scalar)
  | store
  deriving DecidableEq, Inhabited

namespace Kind

/-- The values of a kind. -/
abbrev Carrier : Kind → Type
  | scalar s => s.Carrier
  | store => StoreId

/-- The name of a kind. -/
def name : Kind → String
  | scalar s => s.name
  | store => "stagerunner::store::Store"

/-- The name shown for an explicit nil, which has no kind. -/
def nilName : String := "nil"

/-- Every kind. -/
def all : List Kind :=
  [.scalar .bool, .scalar .unit, .scalar .int8, .scalar .int16, .scalar .int32, .scalar .int64,
    .scalar .int128, .scalar .intSize, .scalar .uint8, .scalar .uint16, .scalar .uint32,
    .scalar .uint64, .scalar .uint128, .scalar .uintSize, .scalar .float, .scalar .char,
    .scalar .text, .scalar .slice, .scalar .texts, .scalar .numbers, .scalar .bytes,
    .scalar .rows, .scalar .textOption, .scalar .numberOption, .scalar .pair, .store]

/-- The kind with a name. -/
def ofName? (name : String) : Option Kind :=
  all.find? (·.name == name)

/-- A kind is found by its name. -/
theorem ofName?_name (k : Kind) : ofName? k.name = some k := by
  rcases k with ⟨⟨⟩⟩ | _ <;> decide

/-- **Kinds are told apart by their names.** -/
theorem name_injective {s t : Kind} (h : s.name = t.name) : s = t :=
  Option.some.inj ((ofName?_name s).symm.trans (h ▸ ofName?_name t))

/-- No kind is called like the explicit nil. -/
theorem name_ne_nilName {s : Kind} : s.name ≠ nilName := by
  rcases s with ⟨⟨⟩⟩ | _ <;> decide

end Kind

/-- A value with its kind. -/
structure Value where
  kind : Kind
  data : kind.Carrier

namespace Value

instance : Inhabited Value := ⟨⟨.scalar .unit, ()⟩⟩

/-- The value, if it is of a kind. -/
def as? (v : Value) (kind : Kind) : Option kind.Carrier :=
  if h : v.kind = kind then some (h ▸ v.data) else none

/-- A value is of a kind exactly when it was made of that kind. -/
theorem as?_eq_some_iff {v : Value} {kind : Kind} {x : kind.Carrier} :
    v.as? kind = some x ↔ v = ⟨kind, x⟩ := by
  rcases v with ⟨own, data⟩
  by_cases h : own = kind
  · subst h
    simp [as?]
  · simp only [as?, h, dite_false, Value.mk.injEq, false_and, reduceCtorEq]

/-- A value is of no kind but its own. -/
theorem as?_eq_none_iff {v : Value} {kind : Kind} : v.as? kind = none ↔ v.kind ≠ kind := by
  by_cases h : v.kind = kind <;> simp [as?, h]

end Value

end StagedWorkflow
