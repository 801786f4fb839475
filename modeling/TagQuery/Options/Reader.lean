import TagQuery.Json.Value
import TagQuery.Options
import TagQuery.Text.Bytes

/-! Reading options from JSON. An object gives them by name, and other names are ignored; an array
gives them in order. What is not given has its default. -/
namespace TagQuery.Options

inductive ReadFault where
  | text (fault : Json.Fault)
  | badKey
  | repeated (key : List Char)
  | mistyped (key : List Char)
  | tooLong
  | notOptions
  deriving DecidableEq, Repr

def bool? : Json.Value → Option Bool
  | .bool b => some b
  | _ => none

def natOfDigits (digits : List Char) : Nat :=
  digits.foldl (fun n c => 10 * n + (c.toNat - 48)) 0

/-- A capacity is written with digits only and fits 64 bits. -/
def capacity? : Json.Value → Option UInt64
  | .number digits =>
    if digits.all Char.isDigit && natOfDigits digits < UInt64.size then
      some (UInt64.ofNat (natOfDigits digits))
    else none
  | _ => none

/-- The value of the member with a key, read by `decode`; at most one member may have it. -/
def field {α : Type} (members : List (List Char × Json.Value)) (key : List Char) (default : α)
    (decode : Json.Value → Option α) : Except ReadFault α :=
  match members.filter (·.1 == key) with
  | [] => .ok default
  | [m] =>
    match decode m.2 with
    | some a => .ok a
    | none => .error (.mistyped key)
  | _ => .error (.repeated key)

def namedFrom (read : List (List Char × Json.Value)) :
    List (List Json.Letter × Json.Value) → Except ReadFault (List (List Char × Json.Value))
  | [] => .ok read.reverse
  | m :: rest =>
    match Json.chars? m.1 with
    | some key => namedFrom ((key, m.2) :: read) rest
    | none => .error .badKey

def ofMembers (members : List (List Char × Json.Value)) : Except ReadFault Options :=
  match field members wildcardsKey ({} : Options).wildcards bool?,
    field members capacityKey ({} : Options).cacheCapacity capacity?,
    field members lenientKey ({} : Options).lenient bool? with
  | .ok wildcards, .ok cacheCapacity, .ok lenient => .ok ⟨wildcards, cacheCapacity, lenient⟩
  | .error fault, _, _ => .error fault
  | _, .error fault, _ => .error fault
  | _, _, .error fault => .error fault

/-- The items of an array as members, in the order of the options. -/
def ofItems (items : List Json.Value) : Except ReadFault Options :=
  let keys := [wildcardsKey, capacityKey, lenientKey]
  if items.length ≤ keys.length then ofMembers (keys.zip items) else .error .tooLong

def ofValue : Json.Value → Except ReadFault Options
  | .object members =>
    match namedFrom [] members with
    | .ok members => ofMembers members
    | .error fault => .error fault
  | .array items => ofItems items
  | _ => .error .notOptions

def parse (text : List Char) : Except ReadFault Options :=
  match Json.Value.parse text with
  | .ok value => ofValue value
  | .error fault => .error (.text fault)

/-- Where a fault shows: the line, and the bytes before it on that line. -/
def placeText (text after : List Char) : String :=
  let before := text.take (text.length - after.length)
  let line := 1 + before.count '\n'
  let column := Text.utf8Length (before.reverse.takeWhile (· != '\n'))
  "line " ++ toString line ++ " column " ++ toString column

def ReadFault.message (text : List Char) : ReadFault → String
  | .text fault => fault.cause.message ++ " at " ++ placeText text fault.after
  | .badKey => Json.Cause.loneSurrogate.message
  | .repeated key => "duplicate field `" ++ String.ofList key ++ "`"
  | .mistyped key => "invalid value for `" ++ String.ofList key ++ "`"
  | .tooLong => Json.Cause.trailingCharacters.message
  | .notOptions => "expected an object or an array"

end TagQuery.Options
