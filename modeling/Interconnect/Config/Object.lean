import Interconnect.Config.Typed

namespace Interconnect.Config.Value

/-- Folds `read` over the fields of an object whose name is among `names`. A field that `read` does not know
is an error, but for `legend_name`, which any object may have. -/
def readObject {σ : Type} (v : Value) (names : List String)
    (read : σ → String → Value → Option (Except Error σ)) (start : σ) : Except Error σ :=
  let expected := names.headD "None"
  match v with
  | object name fields =>
    if name ∈ names then
      fields.foldlM (fun state (field, x) =>
        match read state field x with
        | some next => next
        | none =>
          if field = "legend_name" then .ok state
          else .error (.illFormed v (.unknownField field expected))) start
    else .error (.illFormed v (.wrongObject names name))
  | _ => .error (.illFormed v (.notAnObject expected))

def expectBare (v : Value) (names : List String) : Except Error Unit :=
  v.readObject names (fun _ _ _ => none) ()

end Interconnect.Config.Value
