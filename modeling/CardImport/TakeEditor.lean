import CardImport.Registry

/-!
# Editing a take

A change fetches the take, replaces the fields that are given and stores it under its old id.
-/

namespace CardImport

structure TakeChanges where
  scene : Option Json := none
  num : Option Json := none
  clipName : Option Json := none
  select : Option Bool := none

def TakeChanges.apply (c : TakeChanges) (t : Take) : Take where
  id := ⟨c.scene.getD t.id.scene, c.num.getD t.id.num⟩
  clipName := c.clipName.getD t.clipName
  select := c.select.getD t.select

namespace TakeEditor

open Network

variable {m : Type → Type} [Monad m] [Network m]

def load (e : Endpoint) (id : TakeId) : ExceptT Failure m Take := do
  perform e (← Registry.get id)

/-- Changes a take; a new scene or number moves it to a new id. -/
def save (e : Endpoint) (id : TakeId) (changes : TakeChanges) : ExceptT Failure m Take := do
  let t ← perform e (← Registry.get id)
  let updated := changes.apply t
  perform e (← Registry.update id updated)
  if !updated.id.same id then
    note (m := m) ⟨.info, .editing, "Moved take " ++ id.text ++ " to " ++ updated.id.text⟩
  return updated

def destroy (e : Endpoint) (id : TakeId) : ExceptT Failure m Unit := do
  perform e (← Registry.delete id)

end TakeEditor

end CardImport
