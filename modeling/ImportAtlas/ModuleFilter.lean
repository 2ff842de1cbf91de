import ImportAtlas.ModulePath
import ImportAtlas.OrderedSet
import ImportAtlas.Text.Visible

/-!
Filters on dotted module names.

A name lies within another one if it is that name or goes on from it behind a dot. A filter keeps
the names within its first list and drops those within its second one; a list that is not given
keeps everything or drops nothing.
-/

namespace ImportAtlas

open ImportAtlas.Text

/-- The name is `top` or goes on from it behind a dot. -/
def isWithin (name top : String) : Bool :=
  name == top || (top.toList ++ ['.']).isPrefixOf name.toList

def isWithinAny (name : String) (tops : List String) : Bool := tops.any (isWithin name)

/-- The names of a list with commas between them, blanks around each and empty ones left out. -/
def readNameList (list : String) : NameSet :=
  .ofList ((((ModulePath.split ',' list.toList).map trim).filter (!·.isEmpty)).map String.ofList)

structure ModuleFilter where
  /-- the names to keep, with all that lies within them -/
  kept : Option NameSet := none
  /-- the names to drop, with all that lies within them -/
  dropped : Option NameSet := none
  deriving DecidableEq, Inhabited

namespace ModuleFilter

def all : ModuleFilter := {}

def isKept (f : ModuleFilter) (name : String) : Bool :=
  match f.kept with
  | none => true
  | some names => isWithinAny name names.toList

def isDropped (f : ModuleFilter) (name : String) : Bool :=
  match f.dropped with
  | none => false
  | some names => isWithinAny name names.toList

/-- The filter lets the name pass: a name in both lists is dropped. -/
def allows (f : ModuleFilter) (name : String) : Bool := f.isKept name && !f.isDropped name

@[simp] theorem allows_all (name : String) : all.allows name = true := rfl

end ModuleFilter

end ImportAtlas
