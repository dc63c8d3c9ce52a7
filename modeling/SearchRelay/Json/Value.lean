import SearchRelay.Binary64.Format
import SearchRelay.Text.Numeral

namespace SearchRelay.Json

inductive Number
  | integer (value : Int)
  | float (value : Binary64)
  deriving DecidableEq, Repr

/-- A JSON value. The members of an object stand in the order of their keys. -/
inductive Value
  | null
  | bool (value : Bool)
  | number (value : Number)
  | string (value : String)
  | array (items : List Value)
  | object (members : List (String × Value))
  deriving Repr

abbrev Members := List (String × Value)

namespace Members

/-- Sets a member; keys stay sorted, and a key that is already there gets the new value. -/
def set (key : String) (value : Value) : Members → Members
  | [] => [(key, value)]
  | (k, v) :: r =>
    if key < k then (key, value) :: (k, v) :: r
    else if k < key then (k, v) :: set key value r
    else (key, value) :: r

def ofList (ms : List (String × Value)) : Members :=
  ms.foldl (fun acc (k, v) => set k v acc) []

end Members

namespace Value

def nat (n : Nat) : Value := .number (.integer n)

def ofMembers (ms : List (String × Value)) : Value := .object (Members.ofList ms)

end Value

end SearchRelay.Json
