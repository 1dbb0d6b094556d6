import Assay.Corpus
import Assay.Crosswalk

/-!
# Coverage of a corpus by a crosswalk

The defects of a corpus refer to rules of coding standards. A crosswalk should map each of those
rules, and to the category of the defect among others.
-/

namespace Assay.Corpus

/-- What a crosswalk says otherwise about a rule of a defect, if anything. -/
def mismatch? (x : Crosswalk) (sampleId : String) (d : Defect) (r : RuleRef) : Option String :=
  let key := RuleKey.of r.standard r.ruleId
  let place := sampleId ++ "/" ++ d.id ++ ": " ++ key.label
  if !x.covers key then some (place ++ " is not in crosswalk " ++ x.version)
  else
    let categories := (x.resolve key).map Classification.category
    if categories.contains d.category then none
    else
      some (place ++ " maps to " ++
        ", ".intercalate (Diagnostics.canonical (categories.map Category.label)) ++ ", not " ++
        d.category.label)

/-- Every rule of a defect that a crosswalk does not map, or maps elsewhere. -/
def mismatches (c : Corpus) (x : Crosswalk) : List String :=
  c.samples.flatMap fun s => s.defects.flatMap fun d => d.rules.filterMap (mismatch? x s.id d)

end Assay.Corpus
