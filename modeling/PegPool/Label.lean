import PegPool.Asset
import PegPool.JsonString
import PegPool.Text.Quoted

/-!
# Labels

Assets and directions are named by their labels. A label that names none is an error, which quotes
it.
-/

namespace PegPool

inductive LabelError where
  | noAsset (label : JsonString)
  | noDirection (label : JsonString)
deriving DecidableEq, Repr

/-- The explanation, with the label in quotes. -/
def LabelError.message : LabelError → String
  | noAsset label => String.ofList (Text.quoted label.points) ++ " is not a valid Token"
  | noDirection label => String.ofList (Text.quoted label.points) ++ " is not a valid SwapDirection"

def Asset.named (label : JsonString) : Except LabelError Asset :=
  match label.plain?.bind Asset.ofLabel? with
  | some found => .ok found
  | none => .error (.noAsset label)

def Direction.named (label : JsonString) : Except LabelError Direction :=
  match label.plain?.bind Direction.ofLabel? with
  | some found => .ok found
  | none => .error (.noDirection label)

end PegPool
