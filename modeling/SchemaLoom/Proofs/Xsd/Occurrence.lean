import SchemaLoom.Proofs.Number.Reading
import SchemaLoom.Proofs.Profile.Hull
import SchemaLoom.Proofs.Xsd.Closure
import SchemaLoom.Proofs.Xsd.Provenance

/-! How often an element of a schema occurs. Whatever a profile says of it, the two bounds are
numbers in order or the upper one is no limit, and they are read back as the range that they were
written for. -/
namespace SchemaLoom

namespace Number

lemma isBlankText_text (n : Int) : Text.isBlankText (text n) = false := by
  obtain ⟨c, rest, htext⟩ := List.exists_cons_of_ne_nil (text_ne_nil n)
  have hplain := (numeral_plain (isNumeral_of_mem_text (n := n) (c := c) (by simp [htext]))).1
  simp [Text.isBlankText, htext, hplain]

lemma isWritable_max {a b : Int} (ha : IsWritable a) (hb : IsWritable b) :
    IsWritable (max a b) := by
  obtain h | h := Int.le_total a b
  · rwa [Int.max_eq_right h]
  · rwa [Int.max_eq_left h]

lemma isWritable_min {a b : Int} (ha : IsWritable a) (hb : IsWritable b) :
    IsWritable (min a b) := by
  obtain h | h := Int.le_total a b
  · rwa [Int.min_eq_left h]
  · rwa [Int.min_eq_right h]

lemma isWritable_zero : IsWritable 0 := by
  unfold IsWritable
  decide

lemma isWritable_one : IsWritable 1 := by
  unfold IsWritable
  decide

end Number

namespace Profile
open Xml (Node)

/-! ## The ends of ranges can be written -/

/-- The ends of a range can be written: neither of them is a number that is too long. -/
structure Range.IsWritable (r : Range) : Prop where
  lower : Number.IsWritable r.lower
  upper : ∀ most, r.upper = .finite most → Number.IsWritable most

lemma isWritable_minOfText (raw : String) : Number.IsWritable (minOfText raw) := by
  unfold minOfText
  split
  · rename_i hread
    exact Number.isWritable_max (Number.isWritable_ofText hread) Number.isWritable_zero
  · exact Number.isWritable_one

lemma isWritable_maxOfText {raw : String} {most : Int} (h : maxOfText raw = .finite most) :
    Number.IsWritable most := by
  unfold maxOfText at h
  split at h
  · cases h
  · split at h
    · rename_i hread
      split at h
      · cases h
      · cases h
        exact Number.isWritable_ofText hread
    · cases h
      exact Number.isWritable_one

lemma isWritable_minOf (n : Node) : Number.IsWritable (minOf n) := by
  unfold minOf
  split
  · exact isWritable_minOfText _
  · split
    · split
      · exact Number.isWritable_one
      · exact Number.isWritable_zero
    · exact Number.isWritable_one

lemma isWritable_maxOf {n : Node} {most : Int} (h : maxOf n = .finite most) :
    Number.IsWritable most := by
  unfold maxOf at h
  split at h
  · exact isWritable_maxOfText h
  · split at h
    · cases h
    · cases h
      exact Number.isWritable_one

lemma isWritable_rangeOf (n : Node) : (rangeOf n).IsWritable := by
  unfold rangeOf
  cases hupper : maxOf n with
  | unbounded => exact ⟨isWritable_minOf n, fun most h => by cases h⟩
  | finite upper =>
    unfold Range.make
    dsimp only
    split
    · exact ⟨isWritable_minOf n, fun most h => by cases h⟩
    · refine ⟨isWritable_minOf n, fun most h => ?_⟩
      cases h
      exact isWritable_maxOf hupper

lemma Range.IsWritable.combine {a b : Range} (ha : a.IsWritable) (hb : b.IsWritable) :
    (a.combine b).IsWritable := by
  obtain ⟨la, ua⟩ := a
  obtain ⟨lb, ub⟩ := b
  refine ⟨Number.isWritable_min ha.lower hb.lower, fun most h => ?_⟩
  cases ua with
  | unbounded => cases h
  | finite x =>
    cases ub with
    | unbounded => cases h
    | finite y =>
      cases h
      exact Number.isWritable_max (ha.upper x rfl) (hb.upper y rfl)

lemma Range.isWritable_combineAll {first : Range} {others : List Range} (hfirst : first.IsWritable)
    (hothers : ∀ r ∈ others, r.IsWritable) : (combineAll first others).IsWritable :=
  List.foldlRecOn others combine hfirst fun _ h r hr => h.combine (hothers r hr)

lemma isWritable_range (g : Siblings Node) : (g.range rangeOf).IsWritable := by
  refine Range.isWritable_combineAll (isWritable_rangeOf _) fun r hr => ?_
  obtain ⟨n, -, rfl⟩ := List.mem_map.mp hr
  exact isWritable_rangeOf n

/-! ## Reading a range that was written -/

/-- The attributes of an element say what a range is, and nothing else: its two bounds are spelled,
each as it is. -/
structure Spells (n : Node) (r : Range) : Prop where
  least : filled? n minNames = some (Number.text r.lower)
  most : filled? n maxNames = some r.upper.text

/-- A text is how an upper end is spelled. -/
def Bound.SpelledBy (raw : String) : Bound → Prop
  | .finite most => Number.ofText? (Text.strip raw) = some most
  | .unbounded => raw = "unbounded"

/-- An element is read as a range from bounds that are spelled out: neither of them is a default or
brought into bounds, and no notice is told. -/
structure ReadsAs (n : Node) (r : Range) : Prop where
  least : ∃ raw, filled? n minNames = some raw ∧ Number.ofText? (Text.strip raw) = some r.lower
  most : ∃ raw, filled? n maxNames = some raw ∧ r.upper.SpelledBy raw
  minOf : minOf n = r.lower
  maxOf : maxOf n = r.upper
  rangeOf : rangeOf n = r
  silent : rangeNotices n = []

lemma spelledBy_text {b : Bound} (h : ∀ most, b = .finite most → Number.IsWritable most) :
    b.SpelledBy b.text := by
  cases b with
  | unbounded => rfl
  | finite most =>
    change Number.ofText? (Text.strip (Number.text most)) = some most
    rw [Number.strip_text, Number.ofText_text (h most rfl)]

lemma maxOfText_text {b : Bound}
    (h : ∀ most, b = .finite most → Number.IsWritable most ∧ 0 ≤ most) :
    maxOfText b.text = b := by
  cases b with
  | unbounded => decide +kernel
  | finite most =>
    obtain ⟨hwritable, hpositive⟩ := h most rfl
    have hlower : (Text.lower (Number.text most) == "unbounded") = false := by
      simpa using Number.lower_text_ne most
    rw [Bound.text, maxOfText, Number.strip_text, hlower, Number.ofText_text hwritable]
    simp only [Bool.false_eq_true, if_false]
    exact if_neg (by omega)

/-- Bounds of a proper range that can be written are read as they are. -/
theorem readsAs_of_spells {n : Node} {r : Range} (hspells : Spells n r) (hwritable : r.IsWritable)
    (hproper : r.Proper) : ReadsAs n r := by
  obtain ⟨hleast, hmost⟩ := hspells
  have hlower : Number.ofText? (Text.strip (Number.text r.lower)) = some r.lower := by
    rw [Number.strip_text, Number.ofText_text hwritable.lower]
  have hupper : r.upper.SpelledBy r.upper.text := spelledBy_text hwritable.upper
  have hmin : minOf n = r.lower := by
    rw [minOf, hleast]
    change minOfText _ = _
    rw [minOfText, hlower]
    exact Int.max_eq_left hproper.lower
  have hmax : maxOf n = r.upper := by
    rw [maxOf, hmost]
    exact maxOfText_text fun most h =>
      ⟨hwritable.upper most h, Int.le_trans hproper.lower (hproper.upper most h)⟩
  refine ⟨⟨_, hleast, hlower⟩, ⟨_, hmost, hupper⟩, hmin, hmax, ?_, ?_⟩
  · obtain ⟨lower, upper⟩ := r
    rw [rangeOf, hmin, hmax]
    cases upper with
    | unbounded => rfl
    | finite most => exact if_neg (Int.not_lt.mpr (hproper.upper most rfl))
  · unfold rangeNotices
    rw [hleast, hmost, hmax, hmin]
    obtain ⟨lower, upper⟩ := r
    dsimp only at hlower ⊢
    cases upper with
    | unbounded =>
      have hnone : Text.lower (Text.strip "unbounded") = "unbounded" := by decide +kernel
      simp only [Option.filter, hlower, Bound.text, hnone]
      rfl
    | finite most =>
      have hread : Number.ofText? (Text.strip (Bound.finite most).text) = some most := hupper
      have hle : ¬most < lower := Int.not_lt.mpr (hproper.upper most rfl)
      simp only [Option.filter, hlower, hread, hle, if_false]
      rfl

end Profile

namespace Xsd
open Profile (Declaration Siblings Source ReadsAs Spells nameOf elementTag)
open Xml (Node)

/-! ## Particles -/

lemma least_particle (p : Particle) :
    (renderParticle p).attribute? "minOccurs" = some (Number.text p.range.lower) := by
  unfold renderParticle
  cases p.content <;> simp [List.lookup_cons]

lemma most_particle (p : Particle) :
    (renderParticle p).attribute? "maxOccurs" = some p.range.upper.text := by
  unfold renderParticle
  cases p.content <;> simp [List.lookup_cons]

lemma spells_particle (p : Particle) : Spells (renderParticle p) p.range := by
  have hupper : Text.isBlankText p.range.upper.text = false := by
    cases p.range.upper with
    | unbounded => decide
    | finite most => exact Number.isBlankText_text most
  constructor
  · simp [Profile.filled?, Profile.minNames, least_particle, Option.filter, Number.isBlankText_text]
  · simp [Profile.filled?, Profile.maxNames, most_particle, Option.filter, hupper]

/-- A particle has the name of its group and the range around its members, in whatever state it is
made. -/
lemma of_particleOf {g : Siblings Subject} {c : Context} {p : Particle}
    (h : ((particleOf g).run c).1 = .ok p) :
    p.name = g.name ∧ p.range = rangeOf g := by
  unfold particleOf at h
  dsimp only at h
  split at h
  · rw [run_bind] at h
    split at h
    · rw [run_get_bind] at h
      cases h
      exact ⟨rfl, rfl⟩
    · cases h
  · rw [run_bind] at h
    split at h
    · cases h
      exact ⟨rfl, rfl⟩
    · cases h

/-- A group of elements as the compiler meets it has the range around what they say. -/
lemma rangeOf_eq_range {k : Siblings Subject} {g : Siblings Node}
    (h : k.map Subject.declaration = g.map Declaration.ofNode) :
    rangeOf k = g.range Profile.rangeOf := by
  have hsubjects := Siblings.map_range Subject.declaration k Declaration.range
  have hnodes := Siblings.map_range Declaration.ofNode g Declaration.range
  have hrange : Declaration.range ∘ Declaration.ofNode = Profile.rangeOf :=
    funext fun n => by simp [Declaration.range, Profile.Facts.ofNode]
  rw [hrange] at hnodes
  rw [← hnodes, ← h, hsubjects]
  rfl

/-- Every element inside of a sequence of a schema is the particle of a group of elements that stand
below one element of the document. -/
theorem exists_group_of_local {s : Settings} {document : Node} {source : Source} {schema : Schema}
    (hdoc : Source.ofDocument document = .ok source)
    (h : compile s source.profile = .ok schema) {n e : Node} (hn : n ∈ schema.render.walk)
    (hname : n.localName? = some "sequence") (he : e ∈ n.childrenNamed "element") :
    ∃ holder ∈ document.walk, ∃ g ∈ Siblings.byName nameOf (holder.childrenNamed elementTag),
    ∃ p : Particle,
      e = renderParticle p ∧ p.name = g.name ∧ p.range = g.range Profile.rangeOf := by
  obtain ⟨r, -, rfl⟩ | ⟨t, ht, particles, attributes, hbody, rfl | ⟨q, -, rfl⟩⟩ :=
    mem_walk_render hn (.inr hname)
  · simp [renderRoot] at hname
  · rw [childrenNamed_sequence] at he
    obtain ⟨p, hp, rfl⟩ := List.mem_map.mp he
    obtain ⟨d, hcounts, hshows⟩ := traced_of_compile h t ht
    obtain ⟨holder, hholder, rfl⟩ := Profile.readFrom_profile hdoc d hcounts.has
    rw [hbody] at hshows
    obtain ⟨k, hk, hpk⟩ := exists_of_mem_right hshows.particles hp
    rw [Profile.groups_ofNode] at hk
    obtain ⟨g, hg, rfl⟩ := List.mem_map.mp hk
    refine ⟨holder, hholder, g, hg, p, rfl, hpk.name, ?_⟩
    have hrange : Declaration.range ∘ Declaration.ofNode = Profile.rangeOf :=
      funext fun n => by simp [Declaration.range, Profile.Facts.ofNode]
    rw [hpk.range, Siblings.map_range, hrange]
  · simp at hname

/-- The bounds of an element are a number from zero on and one that is not below it, or no limit. -/
def BoundsInOrder (n : Node) : Prop :=
  ∃ least : Nat, n.attribute? "minOccurs" = some (Number.natText least) ∧
    (n.attribute? "maxOccurs" = some "unbounded" ∨
      ∃ most, least ≤ most ∧ n.attribute? "maxOccurs" = some (Number.natText most))

lemma boundsInOrder_particle {p : Particle} (h : p.range.Proper) :
    BoundsInOrder (renderParticle p) := by
  obtain ⟨name, ⟨lower, upper⟩, content⟩ := p
  obtain ⟨least, rfl⟩ := Int.eq_ofNat_of_zero_le h.lower
  refine ⟨least, least_particle _, ?_⟩
  rw [most_particle]
  cases upper with
  | unbounded => exact .inl rfl
  | finite most =>
    have hle : (least : Int) ≤ most := h.upper most rfl
    obtain ⟨most, rfl⟩ := Int.eq_ofNat_of_zero_le (Int.le_trans (Int.natCast_nonneg least) hle)
    exact .inr ⟨most, by exact_mod_cast hle, rfl⟩

/-- The range of merged declarations is the least one around theirs, with ends in order, whatever
texts their attributes hold. So the bounds of every particle that is made of them are in order, in
whatever state it is made, and so are those of all elements inside of the sequences of a schema. -/
theorem merged_occurrence_in_order :
    (∀ g : Siblings Node, (g.range Profile.rangeOf).IsHull (g.members.map Profile.rangeOf)) ∧
    (∀ (g : Siblings Node) (k : Siblings Subject) (c : Context) (p : Particle),
      k.map Subject.declaration = g.map Declaration.ofNode → ((particleOf k).run c).1 = .ok p →
        p.range = g.range Profile.rangeOf ∧ BoundsInOrder (renderParticle p)) ∧
    ∀ (s : Settings) (document : Node) (source : Source) (schema : Schema),
      Source.ofDocument document = .ok source → compile s source.profile = .ok schema →
        ∀ n ∈ schema.render.walk, n.localName? = some "sequence" →
          ∀ e ∈ n.childrenNamed "element", BoundsInOrder e := by
  refine ⟨Profile.isHull_range, fun g k c p hk hrun => ?_,
    fun s document source schema hdoc h n hn hname e he => ?_⟩
  · obtain ⟨-, hrange⟩ := of_particleOf hrun
    rw [rangeOf_eq_range hk] at hrange
    exact ⟨hrange, boundsInOrder_particle (hrange ▸ (Profile.isHull_range g).proper)⟩
  · obtain ⟨holder, -, g, -, p, rfl, -, hrange⟩ := exists_group_of_local hdoc h hn hname he
    exact boundsInOrder_particle (hrange ▸ (Profile.isHull_range g).proper)

/-- An element inside of another one, with some attributes. -/
def partNode (name : String) (attributes : List (String × String)) : Node :=
  .element (.plain elementTag) []
    (⟨.plain "name", name⟩ :: attributes.map fun a => ⟨.plain a.1, a.2⟩) []

/-- A slot whose upper end is below its lower one, which is the default; one of ten at least, in
Eastern Arabic digits up to three; and one of at most two, from below zero on. -/
def slotNodes : List Node :=
  [partNode "slot" [("max", "0")], partNode "slot" [("min", " +1_0\n"), ("maxOccurs", "٣")],
    partNode "slot" [("min_occurs", "-4"), ("maxOccurs", "2")]]

def pinNodes : List Node :=
  [partNode "pin" [("minOccurs", "002"), ("max", " 3 ")],
    partNode "pin" [("required", "no"), ("max", "many")]]

/-- A tray with slots and pins. -/
def tray : Source :=
  ⟨none, .element (.plain "DataElements") [] []
    [.element (.plain elementTag) [] [⟨.plain "name", "tray"⟩] (slotNodes ++ pinNodes)]⟩

def trayDocument : Node := .element (.plain "XMLProfile") [] [] [tray.holder]

/-- A schema with digests that are the texts themselves. -/
def plainSettings : Settings := ⟨.permissive, true, id⟩

lemma bodies_tray :
    (compile plainSettings tray.profile).toOption.map (·.types.map TypeDefinition.body) =
    some [.sequence [⟨"slot", ⟨0, .unbounded⟩, .builtin .string⟩,
    ⟨"pin", ⟨0, .finite 3⟩, .builtin .string⟩] []] := by
  decide +kernel

/-- The range around the slots has no limit, as two of them have none, and that around the pins is
up to three. -/
theorem tray_in_order : ∃ schema, Source.ofDocument trayDocument = .ok tray ∧
    compile plainSettings tray.profile = .ok schema ∧
    schema.types.map TypeDefinition.body =
      [.sequence [⟨"slot", ⟨0, .unbounded⟩, .builtin .string⟩,
      ⟨"pin", ⟨0, .finite 3⟩, .builtin .string⟩] []] ∧
    ∀ n ∈ schema.render.walk, n.localName? = some "sequence" →
      ∀ e ∈ n.childrenNamed "element", BoundsInOrder e := by
  obtain ⟨schema, hschema, hbodies⟩ := Option.map_eq_some_iff.mp bodies_tray
  have hcompile := eq_ok_of_toOption hschema
  have hdoc : Source.ofDocument trayDocument = .ok tray := rfl
  exact ⟨schema, hdoc, hcompile, hbodies, merged_occurrence_in_order.2.2 _ _ _ _ hdoc hcompile⟩

/-- The bounds that are written for merged declarations are within the limit of digits, whatever
texts their attributes hold, and reading the element that they are written to gives back the merged
range: no bound is clamped, widened or a default. Every element inside of the sequences of a schema
is read as the range of such a group of its document. -/
theorem occurrence_reads_back :
    (∀ g : Siblings Node, (g.range Profile.rangeOf).IsWritable) ∧
    (∀ (g : Siblings Node) (k : Siblings Subject) (c : Context) (p : Particle),
      k.map Subject.declaration = g.map Declaration.ofNode → ((particleOf k).run c).1 = .ok p →
        ReadsAs (renderParticle p) (g.range Profile.rangeOf)) ∧
    ∀ (s : Settings) (document : Node) (source : Source) (schema : Schema),
      Source.ofDocument document = .ok source → compile s source.profile = .ok schema →
        ∀ n ∈ schema.render.walk, n.localName? = some "sequence" → ∀ e ∈ n.childrenNamed "element",
          ∃ holder ∈ document.walk, ∃ g ∈ Siblings.byName nameOf (holder.childrenNamed elementTag),
            e.attribute? "name" = some g.name ∧ ReadsAs e (g.range Profile.rangeOf) := by
  have hparticle (g : Siblings Node) {p : Particle} (hrange : p.range = g.range Profile.rangeOf) :
      ReadsAs (renderParticle p) (g.range Profile.rangeOf) :=
    Profile.readsAs_of_spells (hrange ▸ spells_particle p) (Profile.isWritable_range g)
      (Profile.isHull_range g).proper
  refine ⟨Profile.isWritable_range, fun g k c p hk hrun => ?_,
    fun s document source schema hdoc h n hn hname e he => ?_⟩
  · obtain ⟨-, hrange⟩ := of_particleOf hrun
    exact hparticle g (hrange.trans (rangeOf_eq_range hk))
  · obtain ⟨holder, hholder, g, hg, p, rfl, hgroup, hrange⟩ :=
      exists_group_of_local hdoc h hn hname he
    exact ⟨holder, hholder, g, hg, hgroup ▸ name_particle p, hparticle g hrange⟩

/-- The pins as they are met, with their range. -/
def pins : Siblings Node := ⟨"pin", partNode "pin" [("minOccurs", "002"), ("max", " 3 ")],
  [partNode "pin" [("required", "no"), ("max", "many")]]⟩

/-- The bounds that are written for the pins are plain numbers. -/
theorem pins_read_back : ∃ p : Particle,
    ((particleOf (pins.map fun n => Subject.of plainSettings [] (.ofNode n))).run (.start none)).1 =
    .ok p ∧
    (renderParticle p).attribute? "minOccurs" = some "0" ∧
    (renderParticle p).attribute? "maxOccurs" = some "3" ∧
    ReadsAs (renderParticle p) (pins.range Profile.rangeOf) := by
  have hrun : ((particleOf (pins.map fun n => Subject.of plainSettings [] (.ofNode n))).run
      (.start none)).1 = .ok ⟨"pin", ⟨0, .finite 3⟩, .builtin .string⟩ := by decide +kernel
  exact ⟨_, hrun, by decide +kernel, by decide +kernel,
    occurrence_reads_back.2.1 pins _ _ _ rfl hrun⟩

end Xsd
end SchemaLoom
