import Bilingual.Data.Basic
import Bilingual.Yaml.Base64
import Bilingual.Yaml.Kind

set_option autoImplicit false

/-! # Values of scalars

The value of a scalar is read from its text as its kind asks. -/

namespace Bilingual.Yaml

/-- The value of a scalar. A truth value as a key counts as a number. -/
inductive Scalar where
  | truth (b : Bool)
  | plain (key : DataKey)
deriving DecidableEq, Repr

namespace Scalar

/-- The data of a scalar. -/
def data : Scalar → Data
  | truth b => .bool b
  | plain key => .ofKey key

/-- The key that a scalar makes. -/
def key : Scalar → DataKey
  | truth b => .integer (if b then 1 else 0)
  | plain key => key

/-- The truth value that a text writes, in letters of any case. -/
def truth? (t : Text) : Except ScalarFault Bool :=
  match OrderedMap.lookup? Kind.truthWords t.lower with
  | some b => .ok b
  | none => .error .truth

/-- The bytes that an ASCII text writes. -/
def bytes? (t : Text) : Option (List UInt8) :=
  if t.all fun c => c.val < 0x80 then Base64.decode? t else none

/-- The value of a scalar with a text and a kind. -/
def read (kind : Kind) (t : Text) : Except Error Scalar :=
  match kind with
  | .null => .ok (plain .null)
  | .truth => ((truth? t).map truth).mapError .scalar
  | .integer => ((Numeral.integer t).map fun n => plain (.integer n)).mapError .scalar
  | .number => ((Numeral.number t).map fun x => plain (.real x)).mapError .scalar
  | .moment => ((Timestamp.read t).map fun m => plain (.moment m)).mapError .scalar
  | .text => .ok (plain (.text t))
  | .bytes => match bytes? t with
    | some bytes => .ok (plain (.bytes bytes))
    | none => .error .malformed
  | _ => .error .malformed

end Scalar

end Bilingual.Yaml
