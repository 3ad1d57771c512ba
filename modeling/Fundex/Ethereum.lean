import Mathlib

namespace Fundex

/-- `ethabi::ParamType`. -/
inductive ParamType where
  | address
  | bytes
  | int (size : Nat)
  | uint (size : Nat)
  | bool
  | string
  | array (inner : ParamType)
  | fixedBytes (size : Nat)
  | fixedArray (inner : ParamType) (size : Nat)
  | tuple (components : List ParamType)

/-- `format!("{}", n)` for an integer. -/
def decimal (n : Nat) : List Char := Nat.toDigits 10 n

mutual

/-- `event_param_type_signature`; its tuple case is `tuple_signature`
(`eventParamTypeSignature_tuple`). -/
def eventParamTypeSignature : ParamType → List Char
  | .address => "address".toList
  | .bytes => "bytes".toList
  | .int size => "int".toList ++ decimal size
  | .uint size => "uint".toList ++ decimal size
  | .bool => "bool".toList
  | .string => "string".toList
  | .array inner => eventParamTypeSignature inner ++ "[]".toList
  | .fixedBytes size => "bytes".toList ++ decimal size
  | .fixedArray inner size => eventParamTypeSignature inner ++ '[' :: decimal size ++ [']']
  | .tuple components => '(' :: [','].intercalate (componentSignatures components) ++ [')']

def componentSignatures : List ParamType → List (List Char)
  | [] => []
  | c :: cs => eventParamTypeSignature c :: componentSignatures cs

end

/-- `tuple_signature`. -/
def tupleSignature (components : List ParamType) : List Char :=
  '(' :: [','].intercalate (components.map eventParamTypeSignature) ++ [')']

theorem componentSignatures_eq (cs : List ParamType) :
    componentSignatures cs = cs.map eventParamTypeSignature := by
  induction cs with
  | nil => rfl
  | cons c cs ih => simp [componentSignatures, ih]

@[simp] theorem eventParamTypeSignature_tuple (cs : List ParamType) :
    eventParamTypeSignature (.tuple cs) = tupleSignature cs := by
  simp [eventParamTypeSignature, tupleSignature, componentSignatures_eq]

example : tupleSignature [.uint 256, .array .address] = "(uint256,address[])".toList := by
  decide

/-- `ethabi::EventParam`. -/
structure EventParam where
  name : String
  kind : ParamType
  indexed : Bool

/-- `ethabi::Event`. -/
structure Event where
  name : String
  inputs : List EventParam
  anonymous : Bool

/-- `ambiguous_event_signature`: `Event(uint256,address)`. -/
def ambiguousEventSignature (event : Event) : List Char :=
  event.name.toList ++ '(' ::
    [','].intercalate (event.inputs.map fun input => eventParamTypeSignature input.kind) ++ [')']

/-- The text `event_signature` writes for one input. -/
def indexedInputSignature (input : EventParam) : List Char :=
  (if input.indexed then "indexed ".toList else []) ++ eventParamTypeSignature input.kind

/-- `event_signature`: `Event(indexed uint256,address)`. -/
def eventSignature (event : Event) : List Char :=
  event.name.toList ++ '(' :: [','].intercalate (event.inputs.map indexedInputSignature) ++ [')']

/-- `ethabi::Contract`, as far as `events()` shows it: its events in the order that iterator
yields them. -/
structure Contract where
  events : List Event

/-- `contract_event_with_signature`. -/
def contractEventWithSignature (contract : Contract) (signature : List Char) : Option Event :=
  (contract.events.find? fun event => eventSignature event = signature).orElse fun _ =>
    let parens := (signature.findIdx? (· = '(')).getD 0
    let eventName := signature.take parens
    match contract.events.filter fun event => event.name.toList = eventName with
    | [event] => if ambiguousEventSignature event = signature then some event else none
    | _ => none

/-- `ethabi::StateMutability`. -/
inductive StateMutability where
  | pure
  | view
  | nonPayable
  | payable
  deriving DecidableEq

/-- `ethabi::Param`. -/
structure Param where
  name : String
  kind : ParamType

/-- `ethabi::Function`, without its outputs, which the lookup does not read. -/
structure AbiFunction where
  name : String
  inputs : List Param
  stateMutability : StateMutability

/-- The filter of `contract_function_with_signature`: functions that may change state. -/
def AbiFunction.mayChangeState (function : AbiFunction) : Bool :=
  match function.stateMutability with
  | .payable | .nonPayable => true
  | .pure | .view => false

/-- The `actual_signature` of `contract_function_with_signature`: `name(address,uint256,bool)`.
`display` is `ethabi`'s `Display` of a `ParamType`, whose source is not in the repository. -/
def functionSignature (display : ParamType → List Char) (function : AbiFunction) : List Char :=
  ['('].intercalate
    [function.name.toList, [','].intercalate (function.inputs.map fun input => display input.kind) ++ [')']]

/-- `contract_function_with_signature`, over the functions `Contract::functions()` yields, in
order. -/
def contractFunctionWithSignature (display : ParamType → List Char) (functions : List AbiFunction)
    (targetSignature : List Char) : Option AbiFunction :=
  (functions.filter AbiFunction.mayChangeState).find? fun function =>
    targetSignature = functionSignature display function

end Fundex
