/-!
# State sets

The states of a workflow are a closed set of named members, each with the ordinal that is stored in
its rows. Ordinals are 32-bit words and no two members share one.
-/

namespace Saga

/-- A named state and the ordinal that stands for it in a row. -/
structure Member where
  name : String
  ordinal : Int32
  deriving DecidableEq, Repr

/-- A closed set of states with distinct ordinals. -/
structure StateSet where
  name : String
  members : List Member
  distinct : (members.map Member.ordinal).Nodup := by decide
  deriving DecidableEq

/-- A state of the set `S`. -/
def StateSet.State (S : StateSet) : Type := { m : Member // m ∈ S.members }

namespace StateSet

variable {S : StateSet}

instance : DecidableEq S.State := inferInstanceAs (DecidableEq { m : Member // m ∈ S.members })

/-- The symbolic name, for logs and error texts. -/
def State.name (s : S.State) : String := s.val.name

/-- The ordinal stored in the row of an instance in this state. -/
def State.ordinal (s : S.State) : Int32 := s.val.ordinal

/-- All states, in the order in which they were declared. -/
def states (S : StateSet) : List S.State := S.members.attach

/-- The member that a stored ordinal stands for. -/
def ofOrdinal? (S : StateSet) (ordinal : Int32) : Option S.State :=
  S.states.find? fun s => s.ordinal = ordinal

end StateSet

end Saga
