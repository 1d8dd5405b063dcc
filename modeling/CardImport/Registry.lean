import CardImport.Exchange
import CardImport.Take

/-!
# The take registry

The server keeps the takes under their ids. Each function is one call; a take is addressed by its
path, so an id that is no text cannot be addressed at all.
-/

namespace CardImport.Registry

/-- Accepts only a response with a status of success. -/
def checked (action : String) (r : Response) : Noted Response :=
  if r.isSuccess then return r
  else
    let message := "takes HTTP status " ++ toString r.status ++ " (" ++ action ++ ")"
    throw (.transport message r.status)

def list : Call (List Take) where
  method := "GET"
  path := TakeId.collectionPath
  accept r := do
    let r ← checked "list" r
    (← (r.data.elementsOrNone : Noted (List Json))).mapM fun t => (Take.ofJson t : Noted Take)

def get (id : TakeId) : Except Failure (Call Take) := do
  let path ← id.path
  return {
    method := "GET"
    path
    accept := fun r => do
      if r.status = 404 then throw (.notFound ("take not found: " ++ id.text))
      let r ← checked ("get " ++ id.text) r
      Take.ofJson r.data }

def insert (t : Take) : Call Unit where
  method := "POST"
  path := TakeId.collectionPath
  body := t.toJson
  accept r := do
    let _ ← checked ("insert " ++ t.id.text) r
    Noted.write .info .registry ("Inserted take " ++ t.id.text)

/-- Replaces the take under an id; the take itself may have another one. -/
def update (id : TakeId) (t : Take) : Except Failure (Call Unit) := do
  let path ← id.path
  return {
    method := "PUT"
    path
    body := t.toJson
    accept := fun r => do
      let _ ← checked ("update " ++ id.text) r
      Noted.write .info .registry ("Updated take " ++ id.text) }

def delete (id : TakeId) : Except Failure (Call Unit) := do
  let path ← id.path
  return {
    method := "DELETE"
    path
    accept := fun r => do
      let _ ← checked ("delete " ++ id.text) r
      Noted.write .info .registry ("Deleted take " ++ id.text) }

end CardImport.Registry
