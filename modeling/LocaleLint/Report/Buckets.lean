import LocaleLint.Report.Basic
import LocaleLint.Rule.Basic

/-! # Buckets

The dotted keys that were found to violate a rule, for every rule, in the order in which they were
found. -/

namespace LocaleLint

/-- A violation: a rule and the dotted key where it is violated. -/
abbrev Hit := Rule × String

/-- The keys of hits of one rule. -/
def hitKeys (hits : List Hit) (rule : Rule) : List String := (hits.filter (·.1 = rule)).map (·.2)

/-- For every rule the dotted keys where it is violated. -/
structure Buckets where
  keys : Rule → List String

namespace Buckets

def empty : Buckets := ⟨fun _ => []⟩

/-- The buckets with more hits in them. -/
def add (b : Buckets) (hits : List Hit) : Buckets := ⟨fun rule => b.keys rule ++ hitKeys hits rule⟩

/-- All rules with their keys in the order of a report. -/
def toList (b : Buckets) : List (Rule × List String) := Rule.all.map fun rule => (rule, b.keys rule)

def violations (b : Buckets) : List (Rule × List String) := b.toList.filter fun entry => !entry.2.isEmpty

def hasErrors (b : Buckets) : Bool := b.toList.any fun entry => !entry.2.isEmpty

@[simp] theorem keys_empty (rule : Rule) : empty.keys rule = [] := rfl

@[simp] theorem keys_add (b : Buckets) (hits : List Hit) (rule : Rule) :
    (b.add hits).keys rule = b.keys rule ++ hitKeys hits rule := rfl

end Buckets

end LocaleLint
