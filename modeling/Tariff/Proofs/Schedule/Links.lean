import Tariff.Proofs.Schedule.Occurrences
import Tariff.Proofs.Text.Bytes

/-!
The links of an entry as a closure: they are the codes that its texts hold, in the order of their
bytes, and resolving them once more adds and drops nothing.
-/

namespace Tariff

open Tariff.Text

namespace Entry

/-- The texts of an entry that are looked through for codes: its stored links, its footnotes and
its source footnotes. -/
def linkTexts (e : Entry) : List String :=
  e.links.getD [] ++ (e.footnotes.map Footnotes.texts).getD []
    ++ (e.sourceFootnotes.map Footnotes.fragmentTexts).getD []

lemma mem_resolveLinks_iff {e : Entry} {s : String} :
    s ∈ e.resolveLinks ↔ ∃ text ∈ e.linkTexts, Holds text s := by
  have heq : e.resolveLinks = sortedSet (e.linkTexts.flatMap chapter99Codes) := rfl
  simp only [heq, mem_sortedSet, List.mem_flatMap, mem_chapter99Codes_iff]

lemma resolveLinks_congr {e e' : Entry} (h : ∀ t, t ∈ e'.linkTexts ↔ t ∈ e.linkTexts) :
    e'.resolveLinks = e.resolveLinks := by
  refine e'.increasing_resolveLinks.eq_of_mem_iff e.increasing_resolveLinks fun s => ?_
  simp only [mem_resolveLinks_iff, h]

structure LinksClosed (e : Entry) : Prop where
  increasing : e.resolveLinks.Pairwise fun s t => bytes s < bytes t
  mem_iff : ∀ s, s ∈ e.resolveLinks ↔ ∃ text ∈ e.linkTexts, Holds text s
  alone : ∀ s ∈ e.resolveLinks, chapter99Codes s = [s]
  stored : Entry.resolveLinks { e with links := some e.resolveLinks } = e.resolveLinks
  /-- neither the order of the texts, nor how often one occurs, nor where, changes anything -/
  texts : ∀ e' : Entry, (∀ t, t ∈ e'.linkTexts ↔ t ∈ e.linkTexts) →
    e'.resolveLinks = e.resolveLinks

/-- **Resolving the links is a closure**: it finds exactly the codes that the texts of the entry
hold, in order, and each of them again in itself. -/
theorem linksClosed (e : Entry) : LinksClosed e where
  increasing := e.increasing_resolveLinks.imp bytes_lt
  mem_iff _ := mem_resolveLinks_iff
  alone s hs := by
    obtain ⟨code, hc, rfl⟩ := isCode_of_mem_resolveLinks hs
    exact hc.chapter99Codes_self
  stored := resolveLinks_stored e
  texts _ := resolveLinks_congr

end Entry

end Tariff
