import Libdef.Conversion.Output

set_option autoImplicit false

namespace Libdef

inductive Action where
  | insert (item : Option Item) (context : Text) (bucket : Bucket)
  | requestContext (name : Text)
  | pushNamespace (name : Text)
  | collectTree (tree : Json) (context : Text)
  | collectStatement (statement : Json) (context : Text)
  | resolve
  | render

namespace Conversion

def insertGiven (c : Conversion) (item : Option Item) (context : Text) (bucket : Bucket) :
    Conversion × Except Fault Handle :=
  match item with
  | none => (c, .error .nothingToStore)
  | some item =>
    let (state, handle) := c.insert item context bucket
    (state, .ok handle)

def perform (c : Conversion) : Action → Step
  | .insert item context bucket =>
    let (state, handle) := c.insertGiven item context bucket
    ⟨state, handle.map fun _ => ()⟩
  | .requestContext name => ⟨c.requestContext name, .ok ()⟩
  | .pushNamespace name => ⟨c.pushNamespace name, .ok ()⟩
  | .collectTree tree context => c.collectTree tree context
  | .collectStatement statement context => c.collectStatement statement context
  | .resolve => c.resolve
  | .render =>
    let (state, text) := c.render
    ⟨state, text.map fun _ => ()⟩

/-- Each action is taken, whether or not those before it went through. -/
def performAll (c : Conversion) (actions : List Action) : Conversion :=
  actions.foldl (fun c action => (c.perform action).state) c

end Conversion
end Libdef
