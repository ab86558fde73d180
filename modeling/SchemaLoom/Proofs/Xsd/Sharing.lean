import SchemaLoom.Proofs.Profile.Document
import SchemaLoom.Proofs.Xsd.Expansion

/-! Elements of one structure share a type, and no element can tell: what a root of a schema may
hold is what the first declaration of its name says by itself. -/
namespace SchemaLoom.Xsd
open Profile (Declaration Siblings Forest Source nameOf elementTag firstOccurrences)
open Xml (Node)

section
variable {s : Settings} {p : Profile.ElementProfile} {schema : Schema}

/-- A root of a schema unfolds to the naive expansion of the first declaration of its name. -/
lemma unfolds_of_rootFits (hs : s.NoCollision (.ofRoots p.roots)) (huri : p.uri ≠ some "")
    (h : compile s p = .ok schema) :
    List.Forall₂ (fun g root => root.1 = g.name ∧
        ∀ e, Unfolds schema (.named root.2) e ↔ e = .naive g.first)
      (Siblings.byName Declaration.name p.roots) schema.roots := by
  obtain ⟨-, hbuilt, hroots⟩ := compiled_of_compile hs huri h
  have hfirst : ∀ g ∈ Siblings.byName Declaration.name p.roots,
      (Forest.ofRoots p.roots).Has g.first :=
    fun g hg => Forest.has_of_mem (Siblings.first_mem hg)
  refine ((List.forall₂_and_left _ _).mpr ⟨hfirst, hroots⟩).imp fun g root hg =>
    ⟨hg.2.name, fun e => ?_⟩
  obtain ⟨t, ht, href, hjudge⟩ := hg.2.type
  rw [href]
  exact unfolds_reference_iff hs hbuilt hg.1 ht ((s.judgedRight _).ok _ hjudge).1 e

end

/-- Sharing types preserves meaning. The roots of a schema are the names of the root declarations in
the order of first occurrence, and what a root may hold, with each reference replaced by the type of
that name all the way down, is the naive expansion of the first declaration of the name. -/
theorem roots_unfold_to_naive {s : Settings} {document : Node} {source : Source} {schema : Schema}
    (hdoc : Source.ofDocument document = .ok source)
    (hs : s.NoCollision (.ofRoots source.profile.roots))
    (h : compile s source.profile = .ok schema) :
    schema.roots.map Prod.fst =
        firstOccurrences ((source.holder.childrenNamed elementTag).map nameOf) ∧
      ∀ root ∈ schema.roots, ∃ n,
        (source.holder.childrenNamed elementTag).find? (nameOf · == root.1) = some n ∧
          ∀ e, Unfolds schema (.named root.2) e ↔ e = .naive (.ofNode n) := by
  have hall := unfolds_of_rootFits hs (Profile.uri_ne_empty hdoc) h
  rw [Profile.roots_profile] at hall
  constructor
  · have hnames := map_eq_map_of_forall₂ (hall.imp fun g root hg => hg.1)
    rw [hnames, Siblings.names_byName, List.map_map]
    exact congrArg firstOccurrences (List.map_congr_left fun n _ => Profile.name_ofNode n)
  · intro root hroot
    obtain ⟨g, hg, hname, hunfolds⟩ := exists_of_mem_right hall hroot
    have hfind := Siblings.find_first hg
    have hsame : (Declaration.name · == root.1) ∘ Declaration.ofNode = (nameOf · == root.1) := by
      funext n
      rw [Function.comp_apply, Profile.name_ofNode]
    rw [List.find?_map, ← hname, hsame] at hfind
    obtain ⟨n, hn, hfirst⟩ := Option.map_eq_some_iff.mp hfind
    exact ⟨n, hn, hfirst ▸ hunfolds⟩

/-- Two leaves of different names below one element. -/
def twinsSource : Source :=
  ⟨none, .element (.plain "DataElements") [] []
    [.element (.plain elementTag) [] [⟨.plain "name", "a"⟩] [],
      .element (.plain elementTag) [] [⟨.plain "name", "b"⟩] []]⟩

def twinsDocument : Node := .element (.plain "XMLProfile") [] [] [twinsSource.holder]

lemma roots_twins : twinsSource.profile.roots = twins := rfl

lemma roots_compile_twins :
    (compile (.standard .strict true) twinsSource.profile).toOption.map Schema.roots =
    some [("a", "AType"), ("b", "AType")] := by
  rw [standard_eq]
  decide +kernel

/-- The second twin takes the type of the first, and may hold what it says by itself. -/
theorem twins_unfold_to_naive : ∃ schema,
    compile (.standard .strict true) twinsSource.profile = .ok schema ∧
      schema.roots = [("a", "AType"), ("b", "AType")] ∧
      ∀ root ∈ schema.roots, ∃ n,
        (twinsSource.holder.childrenNamed elementTag).find? (nameOf · == root.1) = some n ∧
          ∀ e, Unfolds schema (.named root.2) e ↔ e = .naive (.ofNode n) := by
  obtain ⟨schema, hschema, hroots⟩ := Option.map_eq_some_iff.mp roots_compile_twins
  have hcompile := eq_ok_of_toOption hschema
  have hdoc : Source.ofDocument twinsDocument = .ok twinsSource := rfl
  have hs := noCollision_twins .strict
  rw [← roots_twins] at hs
  exact ⟨schema, hcompile, hroots, (roots_unfold_to_naive hdoc hs hcompile).2⟩

end SchemaLoom.Xsd
