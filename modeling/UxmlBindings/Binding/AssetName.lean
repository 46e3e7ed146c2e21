import UxmlBindings.Code.Identifier

/-!
# Names of assets

An asset is a markup file. Its name, between a configured prefix and suffix, names the generated
class, and a configured namespace holds that class. `AssetName.check` tells whether they can.
-/

namespace UxmlBindings.Binding

open Code

/-- What the generated class of an asset is called. An empty namespace is none. -/
structure AssetName where
  stem : String
  space : String := ""
  filePrefix : String := ""
  fileSuffix : String := ""
  deriving DecidableEq, Repr

/-- Why an asset cannot have a generated class. -/
inductive AssetFault where
  | noName
  | badClassName (name : String)
  | badNamespace (space : String)
  deriving DecidableEq, Repr

/-- The wording of a fault. -/
def AssetFault.message : AssetFault → String
  | .noName => "asset has no name"
  | .badClassName name => "'" ++ name ++ "' is not a valid class name"
  | .badNamespace space => "'" ++ space ++ "' is not a valid namespace"

namespace AssetName

/-- The name with its prefix and suffix. -/
def className (asset : AssetName) : String :=
  asset.filePrefix ++ asset.stem ++ asset.fileSuffix

/-- What keeps an asset from having a generated class, if anything does. -/
def check (asset : AssetName) : Except AssetFault Unit :=
  if asset.stem.isEmpty then .error .noName
  else if !Identifier.isValid asset.className then .error (.badClassName asset.className)
  else if !(asset.space.isEmpty || Identifier.isDotted asset.space) then .error (.badNamespace asset.space)
  else .ok ()

/-- The names of which a class can be generated. -/
theorem check_eq_ok_iff (asset : AssetName) :
    asset.check = .ok () ↔
      asset.stem ≠ "" ∧ Identifier.isValid asset.className = true ∧
        (asset.space = "" ∨ Identifier.isDotted asset.space = true) := by
  unfold check
  split
  · simp_all
  · split
    · simp_all
    · rename_i named _
      by_cases global : asset.space = "" <;> split <;> simp_all

end AssetName

end UxmlBindings.Binding
