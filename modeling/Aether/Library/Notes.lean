import Aether.Library.Method

/-! Methods that note things down.

To say where the data that a program hands over comes from, the program is written
again so that it notes this down as it goes along (`note`), the rest of it being as it
was (`bare`). `Erases` says that the notes are all there is to tell the two apart; the
second program may see less of an intermediate result than the first. -/
namespace Octets

/-- A receiver, and what has been noted. -/
structure Noted (σ ν : Type) where
  receiver : σ
  notes : List ν

namespace Method
variable {ε σ ν α α' β β' : Type}

/-- A method that notes nothing. -/
def bare (m : Method ε σ α) : Method ε (Noted σ ν) α := focus Noted.receiver (fun receiver n => { n with receiver }) m

def note (x : ν) : Method ε (Noted σ ν) Unit := modify fun n => { n with notes := n.notes ++ [x] }

/-- The first method does what the second does, apart from the notes; `view` is what the
second has of the first's result. -/
def Erases (view : α → α') (m : Method ε (Noted σ ν) α) (m' : Method ε σ α') : Prop :=
  ∀ n, (m.exec n).1.map view = (m'.exec n.receiver).1 ∧ (m.exec n).2.receiver = (m'.exec n.receiver).2

theorem erases_pure (view : α → α') (a : α) : Erases view (pure a : Method ε (Noted σ ν) α) (pure (view a)) :=
  fun _ => ⟨rfl, rfl⟩

theorem erases_throw (view : α → α') (e : Stop ε) : Erases view (throw e : Method ε (Noted σ ν) α) (throw e) :=
  fun _ => ⟨rfl, rfl⟩

theorem erases_lift {view : α → α'} {o : Outcome ε α} {o' : Outcome ε α'} (h : o.map view = o') :
    Erases view (liftM o : Method ε (Noted σ ν) α) (liftM o') := fun _ => ⟨h, rfl⟩

theorem erases_bare (m : Method ε σ α) : Erases id (bare m : Method ε (Noted σ ν) α) m := by
  intro n
  rw [bare, exec_focus]
  refine ⟨?_, rfl⟩
  cases (m.exec n.receiver).1 <;> rfl

theorem erases_bind {view : α → α'} {view' : β → β'} {m : Method ε (Noted σ ν) α} {m' : Method ε σ α'}
    {f : α → Method ε (Noted σ ν) β} {f' : α' → Method ε σ β'} (hm : Erases view m m')
    (hf : ∀ a, Erases view' (f a) (f' (view a))) : Erases view' (m >>= f) (m' >>= f') := by
  intro n
  obtain ⟨hresult, hreceiver⟩ := hm n
  rw [exec_bind, exec_bind]
  rcases hexec : m.exec n with ⟨r, t⟩
  rcases hexec' : m'.exec n.receiver with ⟨r', t'⟩
  rw [hexec, hexec'] at hresult hreceiver
  cases hresult
  cases hreceiver
  cases r with
  | ok a => exact hf a t
  | error e => exact ⟨rfl, rfl⟩

/-- Taking a note is nothing to the method itself. -/
theorem erases_note_bind {view : α → α'} (x : ν) {m : Method ε (Noted σ ν) α} {m' : Method ε σ α'}
    (h : Erases view m m') : Erases view (note x >>= fun _ => m) m' := by
  intro n
  rw [note, exec_modify_bind]
  exact h _

/-! ### What is noted -/

theorem keeps_bare {Q : List ν → Prop} (m : Method ε σ α) : Keeps (fun n : Noted σ ν => Q n.notes) (bare m) :=
  fun _ h => h

theorem keeps_throw {I : σ → Prop} (e : Stop ε) : Keeps I (throw e : Method ε σ α) := fun _ h => h

theorem keeps_lift {I : σ → Prop} (o : Outcome ε α) : Keeps I (liftM o : Method ε σ α) := fun _ h => h

theorem keeps_note {Q : List ν → Prop} {x : ν} (h : ∀ notes, Q notes → Q (notes ++ [x])) :
    Keeps (fun n : Noted σ ν => Q n.notes) (note x : Method ε (Noted σ ν) Unit) := fun n => h n.notes

end Method

end Octets
