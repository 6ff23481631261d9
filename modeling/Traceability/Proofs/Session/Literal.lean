import Traceability.Proofs.Filter.Literal
import Traceability.Proofs.Session.Filters

/-!
Every item can be asked for by its tag, whatever characters the tag has: a filter that compares
the tag to the text as it is written between quotes selects the item with this tag.
-/

namespace Traceability.Session

theorem select_tagged (items : List Item) (source text : String) :
    select items ⟨source, ⟨.identifier "tag", .sign .eq, .text text⟩, []⟩ =
      items.filter fun item => decide (item.tag = text) := by
  unfold select
  apply List.filter_congr
  intro item _
  rfl

theorem filter_all_of_keyed {r : Registry} (h : r.Keyed) (tag : String) :
    r.all.filter (fun item => decide (item.tag = tag)) = (r.get? tag).toList :=
  SortedMap.filter_values h tag

/-- Between quotes of either kind every text is one token with that text, which reaches up to
the closing quote. Compared to the tag, it selects the items whose tag is that text. In a
session that comes about this is the item that is registered under the tag, or no item. -/
theorem literal_selects {quote : Char} (hquote : quote = '\'' ∨ quote = '"') (text : String) :
    Filter.tokenize (Filter.literal quote text).toList =
      .ok [⟨.text text, 0, (Filter.literal quote text).toList⟩] ∧
    (∀ s : Session, s.cache.Faithful →
      (s.filter ("tag == " ++ Filter.literal quote text)).2 =
        .ok (s.registry.all.filter fun item => decide (item.tag = text))) ∧
    ∀ s : Session, s.Reached →
      (s.filter ("tag == " ++ Filter.literal quote text)).2 = .ok (s.registry.get? text).toList := by
  have hparse := Filter.parse_tagged hquote text
  refine ⟨Filter.scan_literal hquote text 0, fun s hs => ?_, fun s hs => ?_⟩
  · rw [snd_filter_of_parse hs hparse, select_tagged]
  · rw [snd_filter_of_parse hs.faithful hparse, select_tagged, filter_all_of_keyed hs.arises.keyed]

/-- The tag contains a quote, a backslash and a line feed, and another tag begins like it. -/
theorem literal_selects_of_escapes :
    Filter.literal '\'' "don't\\\nü" = "'don\\'t\\\\\\nü'" ∧
    ∃ start, ofRelationships [] 1 = .ok start ∧
      let s := start.run [.register "don't\\\nü" ∅ ⟨"a.rst", 1⟩,
        .register "don't" ∅ ⟨"a.rst", 2⟩]
      ∃ items, (s.filter "tag == 'don\\'t\\\\\\nü'").2 = .ok items ∧
        items.map Item.tag = ["don't\\\nü"] := by
  have hliteral : Filter.literal '\'' "don't\\\nü" = "'don\\'t\\\\\\nü'" := by decide +kernel
  have hstart : ofRelationships [] 1 = .ok (empty .empty 1) := rfl
  refine ⟨hliteral, _, hstart, ?_⟩
  intro s
  have hs : s.Reached := (Reached.opened hstart).run _
  have hanswer := (literal_selects (Or.inl rfl) "don't\\\nü").2.2 s hs
  rw [hliteral] at hanswer
  exact ⟨_, hanswer, by decide +kernel⟩

end Traceability.Session
