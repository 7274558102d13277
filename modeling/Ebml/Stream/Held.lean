import Ebml.Stream.Reader

/-!
# Objects that an operation changes in place

Some operations change an object and a stream together, and what they did to either stays done
when they fail: a cluster that cannot be written is closed all the same.  Such an operation is a
computation over a `Held` pair.  `Filling` reads into an object, `Draining` writes from one.
-/

namespace Ebml

/-- An object, and what the computation on it works on. -/
structure Held (κ σ : Type) where
  /-- The object. -/
  object : κ
  /-- The stream side. -/
  medium : σ

/-- A computation that changes an object as it reads. -/
abbrev Filling (κ : Type) := ReaderT Source (EStateM Error (Held κ Cursor))

/-- A computation that changes an object as it writes. -/
abbrev Draining (κ : Type) := EStateM Error (Held κ Sink)

/-- The object. -/
def held {κ σ : Type} : EStateM Error (Held κ σ) κ := do return (← get).object

/-- Changes the object. -/
def change {κ σ : Type} (f : κ → κ) : EStateM Error (Held κ σ) Unit :=
  modify fun state => { state with object := f state.object }

/-- Works on the stream side alone. -/
def beside {κ σ α : Type} (x : EStateM Error σ α) : EStateM Error (Held κ σ) α := fun state =>
  match x state.medium with
  | .ok a medium => .ok a { state with medium }
  | .error e medium => .error e { state with medium }

namespace Filling

/-- The object. -/
def object {κ : Type} : Filling κ κ := fun _ => held

/-- Changes the object. -/
def change {κ : Type} (f : κ → κ) : Filling κ Unit := fun _ => Ebml.change f

/-- Reads without touching the object. -/
def lift {κ α : Type} (reader : Reader α) : Filling κ α := fun source => beside (reader source)

/-- Reads into an object, from the stream that a writer works on.  The object comes back whether
or not that succeeded. -/
def onSink {κ α : Type} (limit : Nat) (filling : Filling κ α) : Draining κ α := fun state =>
  let sink := state.medium
  let after (state : Held κ Cursor) : Held κ Sink :=
    { object := state.object
      medium :=
        { stream := { sink.stream with pos := state.medium.pos }, log := state.medium.log } }
  match filling ⟨sink.stream.data, limit⟩ ⟨state.object, ⟨sink.stream.pos, sink.log⟩⟩ with
  | .ok a state => .ok a (after state)
  | .error e state => .error e (after state)

end Filling

end Ebml
