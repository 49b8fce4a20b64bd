import NamelistCatalog.Entry

namespace NamelistCatalog

/-- Which of two candidates of one name survives. -/
inductive MergePolicy where
  /-- The higher version, and of equal versions the more recent candidate. -/
  | versionThenRecency
  | firstWins
  | lastWins
deriving DecidableEq, Repr, Inhabited

namespace MergePolicy

/-- Whether the later candidate takes the place of the earlier one. -/
def replaces : MergePolicy → (incumbent challenger : Entry) → Bool
  | .versionThenRecency, incumbent, challenger =>
      (compare incumbent.version challenger.version).isLE
  | .firstWins, _, _ => false
  | .lastWins, _, _ => true

/-- The name under which a configuration selects the policy. -/
def label : MergePolicy → String
  | .versionThenRecency => "version_then_recency"
  | .firstWins => "first_wins"
  | .lastWins => "last_wins"

def ofLabel? (label : String) : Option MergePolicy :=
  if label == "version_then_recency" then some .versionThenRecency
  else if label == "first_wins" then some .firstWins
  else if label == "last_wins" then some .lastWins
  else none

@[simp] theorem ofLabel?_label (p : MergePolicy) : ofLabel? p.label = some p := by
  cases p <;> decide

end MergePolicy

/-- One decision between two candidates of one name. -/
structure Override where
  /-- The name of the candidate that was kept. -/
  name : String
  keptVersion : SourceVersion
  keptOrigin : String
  supersededName : String
  supersededVersion : SourceVersion
  supersededOrigin : String
deriving DecidableEq, Repr

namespace Override

/-- The decision for `kept` against `superseded`. -/
def of (kept superseded : Entry) : Override :=
  { name := kept.name
    keptVersion := kept.version
    keptOrigin := kept.origin
    supersededName := superseded.name
    supersededVersion := superseded.version
    supersededOrigin := superseded.origin }

def displayOrigin (origin : String) : String := if origin.isEmpty then "<unknown>" else origin

def display (o : Override) : String :=
  o.name ++ " (version " ++ o.keptVersion.text ++ ", from " ++ displayOrigin o.keptOrigin ++
    ") supersedes " ++ o.supersededName ++ " (version " ++ o.supersededVersion.text ++ ", from " ++
    displayOrigin o.supersededOrigin ++ ")"

end Override

/-- What a merge leaves: one entry for each folded name, listed by name, and the decisions in the
order in which they were taken. -/
structure Merge where
  entries : List Entry
  overrides : List Override
deriving DecidableEq, Repr

namespace Merge

/-- The survivors so far, each under its key. -/
abbrev Survivors := List (String × Entry)

/-- Puts another entry under a key that is taken. -/
def Survivors.replace (survivors : Survivors) (key : String) (e : Entry) : Survivors :=
  survivors.map fun s => if s.1 == key then (key, e) else s

/-- Takes the remaining candidates one by one. -/
def run (policy : MergePolicy) (survivors : Survivors) : List Entry → Survivors × List Override
  | [] => (survivors, [])
  | candidate :: rest =>
      match survivors.lookup candidate.key with
      | none => run policy ((candidate.key, candidate) :: survivors) rest
      | some incumbent =>
          if policy.replaces incumbent candidate then
            let result := run policy (survivors.replace candidate.key candidate) rest
            (result.1, Override.of candidate incumbent :: result.2)
          else
            let result := run policy survivors rest
            (result.1, Override.of incumbent candidate :: result.2)

/-- Merges candidates, of which later ones are more recent. -/
def ofCandidates (policy : MergePolicy) (candidates : List Entry) : Merge :=
  let result := run policy [] candidates
  { entries := Entry.sortByName (result.1.map Prod.snd), overrides := result.2 }

end Merge

end NamelistCatalog
