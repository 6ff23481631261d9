import Mathlib
import Traceability.Document.Listing
import Traceability.Proofs.Item.Tags
import Traceability.Proofs.Sorted.Lookup

/-!
The attributes of listed declarations. A listing is read if every value is a scalar or a list of
scalars, and each value is then kept as its text. In the text of a list the tags are those in the
texts of its scalars, in their order, whatever these texts contain.
-/

namespace Traceability.Document.Listing

open Yaml

/-- Neither a list nor a mapping, and under no local tag. -/
def IsScalar : Value → Prop
  | .sequence _ | .mapping _ | .tagged _ _ => False
  | _ => True

/-- A scalar or a list of scalars. -/
def HasText : Value → Prop
  | .sequence items => ∀ v ∈ items, IsScalar v
  | v => IsScalar v

/-- The texts of scalars, one for each of them. -/
def AreTexts (items : List Value) (texts : List String) : Prop :=
  List.Forall₂ (fun v text => scalarText? v = some text) items texts

/-- A text has the tags of the scalars in a list, one scalar after the other. These are the texts
of the scalars themselves exactly if each of them is a tag. -/
def HasTagsOf (items : List Value) (text : String) : Prop :=
  ∃ texts, AreTexts items texts ∧ splitTags text = texts.flatMap splitTags ∧
    (splitTags text = texts ↔ ∀ t ∈ texts, IsSingleTag t)

section Traversal

variable {α β ε : Type} {l : List α} {out : List β}

theorem exists_forall₂_iff {R : α → β → Prop} :
    (∃ out, List.Forall₂ R l out) ↔ ∀ a ∈ l, ∃ b, R a b := by
  induction l with
  | nil => simp
  | cons a l ih =>
    rw [List.forall_mem_cons, ← ih]
    constructor
    · rintro ⟨_, hout⟩
      obtain ⟨b, rest, hb, hrest, -⟩ := List.forall₂_cons_left_iff.mp hout
      exact ⟨⟨b, hb⟩, ⟨rest, hrest⟩⟩
    · rintro ⟨⟨b, hb⟩, ⟨rest, hrest⟩⟩
      exact ⟨b :: rest, .cons hb hrest⟩

theorem mapM_eq_some_iff {f : α → Option β} :
    l.mapM f = some out ↔ List.Forall₂ (fun a b => f a = some b) l out := by
  induction l generalizing out with
  | nil => simp [eq_comm]
  | cons a l ih =>
    rw [List.mapM_cons, List.forall₂_cons_left_iff]
    cases ha : f a with
    | none => simp
    | some b => cases hl : l.mapM f <;> simp [← ih, hl, eq_comm]

theorem mapM_eq_ok_iff {f : α → Except ε β} :
    l.mapM f = .ok out ↔ List.Forall₂ (fun a b => f a = .ok b) l out := by
  induction l generalizing out with
  | nil => simp [pure, Except.pure, eq_comm]
  | cons a l ih =>
    rw [List.mapM_cons, List.forall₂_cons_left_iff]
    cases ha : f a with
    | error e => simp [bind, Except.bind]
    | ok b => cases hl : l.mapM f <;> simp [bind, Except.bind, pure, Except.pure, ← ih, hl, eq_comm]

end Traversal

section Texts

variable {items : List Value} {text : String}

theorem exists_scalarText?_iff {v : Value} : (∃ text, scalarText? v = some text) ↔ IsScalar v := by
  cases v <;> simp [scalarText?, IsScalar]

theorem valueText?_sequence_eq_some_iff :
    valueText? (.sequence items) = some text ↔
      ∃ texts, AreTexts items texts ∧ Text.joined ", " texts = text := by
  rw [valueText?, Option.map_eq_some_iff]
  simp only [mapM_eq_some_iff, AreTexts]

theorem exists_valueText?_iff {v : Value} : (∃ text, valueText? v = some text) ↔ HasText v := by
  cases v with
  | sequence items =>
    have htexts : (∃ texts, AreTexts items texts) ↔ ∀ v ∈ items, IsScalar v := by
      simp only [AreTexts, exists_forall₂_iff, exists_scalarText?_iff]
    rw [HasText, ← htexts]
    simp only [valueText?_sequence_eq_some_iff]
    constructor
    · rintro ⟨_, texts, h, -⟩
      exact ⟨texts, h⟩
    · rintro ⟨texts, h⟩
      exact ⟨_, texts, h, rfl⟩
  | _ => simp [valueText?, HasText, exists_scalarText?_iff]

theorem hasTagsOf_of_valueText? (h : valueText? (.sequence items) = some text) :
    HasTagsOf items text := by
  obtain ⟨texts, htexts, rfl⟩ := valueText?_sequence_eq_some_iff.mp h
  refine ⟨texts, htexts, splitTags_joined texts, ?_⟩
  rw [splitTags_joined]
  exact flatMap_splitTags_eq_self_iff

end Texts

section Reading

variable {document : String} {content : List Char}

/-- A name stays as it is, and its value is written as text. -/
def IsWritten (listed : String × Value) (written : String × String) : Prop :=
  written.1 = listed.1 ∧ valueText? listed.2 = some written.2

theorem texts_eq_ok_iff (tag : String) (origin : Origin) {listed : List (String × Value)}
    {written : List (String × String)} :
    texts tag origin listed = .ok written ↔ List.Forall₂ IsWritten listed written := by
  induction listed generalizing written with
  | nil => simp [texts, eq_comm]
  | cons first listed ih =>
    obtain ⟨name, value⟩ := first
    rw [texts, List.forall₂_cons_left_iff]
    cases hvalue : valueText? value with
    | none => simp [IsWritten, hvalue]
    | some text =>
      cases hrest : texts tag origin listed with
      | error fault => simp [Except.map, ← ih, hrest]
      | ok rest => simp [Except.map, ← ih, hrest, IsWritten, hvalue, eq_comm]

theorem map_fst_eq_of_isWritten {listed : List (String × Value)}
    {written : List (String × String)} (h : List.Forall₂ IsWritten listed written) :
    written.map Prod.fst = listed.map Prod.fst := by
  induction h with
  | nil => rfl
  | cons hfirst _ ih => rw [List.map_cons, List.map_cons, hfirst.1, ih]

theorem mem_written_iff {listed : List (String × Value)} {written : List (String × String)}
    (h : List.Forall₂ IsWritten listed written) {name text : String} :
    (name, text) ∈ written ↔ ∃ value, (name, value) ∈ listed ∧ valueText? value = some text := by
  induction h with
  | nil => simp
  | @cons first other _ _ hfirst _ ih =>
    obtain ⟨name', value'⟩ := first
    obtain ⟨name'', text'⟩ := other
    obtain ⟨rfl, htext⟩ : name'' = name' ∧ valueText? value' = some text' := hfirst
    rw [List.mem_cons, ih, Prod.mk.injEq]
    constructor
    · rintro (⟨rfl, rfl⟩ | ⟨value, hmem, hvalue⟩)
      · exact ⟨value', List.mem_cons_self, htext⟩
      · exact ⟨value, List.mem_cons_of_mem _ hmem, hvalue⟩
    · rintro ⟨value, hmem, hvalue⟩
      rcases List.mem_cons.mp hmem with hfirst | hmem
      · obtain ⟨rfl, rfl⟩ := Prod.mk.inj hfirst
        exact Or.inl ⟨rfl, Option.some.inj (hvalue.symm.trans htext)⟩
      · exact Or.inr ⟨value, hmem, hvalue⟩

theorem declaration_eq_ok_iff {e : Entry} {d : Declaration} :
    declaration document content e = .ok d ↔ ∃ written,
      List.Forall₂ IsWritten e.attributes.entries written ∧
        d = ⟨Text.trimmed e.tag, .ofList written, locate content e.tag.toList⟩ := by
  have hwritten {written : List (String × String)} :=
    @texts_eq_ok_iff (Text.trimmed e.tag) ⟨document, locate content e.tag.toList⟩
      e.attributes.entries written
  simp only [declaration, ← hwritten]
  cases texts (Text.trimmed e.tag) ⟨document, locate content e.tag.toList⟩ e.attributes.entries with
  | error fault => simp [Except.map]
  | ok written => simp [Except.map, eq_comm]

theorem get?_declaration {e : Entry} {d : Declaration}
    (h : declaration document content e = .ok d) (name : String) :
    d.attributes.get? name = (e.attributes.get? name).bind valueText? := by
  obtain ⟨written, hwritten, rfl⟩ := declaration_eq_ok_iff.mp h
  have hnodup : (written.map Prod.fst).Nodup := by
    rw [map_fst_eq_of_isWritten hwritten]
    exact e.attributes.nodup_keys
  apply Option.ext
  intro text
  rw [SortedMap.get?_ofList_of_nodup hnodup, mem_written_iff hwritten, Option.bind_eq_some_iff]
  simp only [SortedMap.mem_entries]

theorem exists_declaration_iff {e : Entry} :
    (∃ d, declaration document content e = .ok d) ↔ ∀ v ∈ e.attributes.values, HasText v := by
  have hwritten : (∃ written, List.Forall₂ IsWritten e.attributes.entries written) ↔
      ∀ v ∈ e.attributes.values, HasText v := by
    rw [exists_forall₂_iff, SortedMap.values, List.forall_mem_map]
    refine forall₂_congr fun entry _ => ?_
    rw [← exists_valueText?_iff]
    constructor
    · rintro ⟨_, -, htext⟩
      exact ⟨_, htext⟩
    · rintro ⟨text, htext⟩
      exact ⟨(entry.1, text), rfl, htext⟩
  rw [← hwritten]
  simp only [declaration_eq_ok_iff]
  constructor
  · rintro ⟨_, written, h, -⟩
    exact ⟨written, h⟩
  · rintro ⟨written, h⟩
    exact ⟨_, written, h, rfl⟩

theorem read_eq_ok_iff {found : List Entry} (h : entries? content = some found)
    {declarations : List Declaration} :
    read document content = .ok declarations ↔
      List.Forall₂ (fun e d => declaration document content e = .ok d) found declarations := by
  rw [read, h]
  exact mapM_eq_ok_iff

end Reading

/-- A list of scalars always has a text, and the text has the tags of the scalars, in their order.
A listing is read if and only if each of its values is a scalar or a list of scalars, and the
attributes of lists are then such texts. A comma and a space between any two texts join their
tags. -/
theorem lists_split_like_their_scalars :
    (∀ items : List Value, (∀ v ∈ items, IsScalar v) →
      ∃ text, valueText? (.sequence items) = some text ∧ HasTagsOf items text) ∧
    (∀ document content found, entries? content = some found →
      ((∃ declarations, read document content = .ok declarations) ↔
        ∀ e ∈ found, ∀ v ∈ e.attributes.values, HasText v) ∧
      ∀ declarations, read document content = .ok declarations →
        List.Forall₂ (fun e d => ∀ name items, e.attributes.get? name = some (.sequence items) →
          ∃ text, d.attributes.get? name = some text ∧ HasTagsOf items text) found declarations) ∧
    ∀ a b : String, splitTags (a ++ ", " ++ b) = splitTags a ++ splitTags b := by
  refine ⟨fun items hitems => ?_, fun document content found hfound => ⟨?_, ?_⟩,
    splitTags_append_commaSpace⟩
  · have hlist : HasText (.sequence items) := hitems
    obtain ⟨text, htext⟩ := exists_valueText?_iff.mpr hlist
    exact ⟨text, htext, hasTagsOf_of_valueText? htext⟩
  · simp only [read_eq_ok_iff hfound, exists_forall₂_iff, exists_declaration_iff]
  · intro declarations hread
    refine ((read_eq_ok_iff hfound).mp hread).imp fun e d hd name items hvalue => ?_
    have hlist : HasText (.sequence items) :=
      exists_declaration_iff.mp ⟨d, hd⟩ _ (SortedMap.mem_values.mpr ⟨name, hvalue⟩)
    obtain ⟨text, htext⟩ := exists_valueText?_iff.mpr hlist
    refine ⟨text, ?_, hasTagsOf_of_valueText? htext⟩
    rw [get?_declaration hd, hvalue, Option.bind_some, htext]

/-- Scalars with blanks around a tag, without tag, with two tags, and of another kind. -/
def mixed : List Value := [.text " B", .null, .text "C,D", .bool true]

def mixedListing : List Char :=
  "- tag: A\n  attributes:\n    parents: [' B', null, 'C,D', true]\n".toList

set_option maxRecDepth 20000 in
theorem entries?_mixedListing :
    entries? mixedListing = some [⟨"A", .ofList [("parents", .sequence mixed)]⟩] := by
  cbv

theorem lists_split_like_their_scalars_of_mixed :
    (∀ v ∈ mixed, IsScalar v) ∧
      (∃ text, valueText? (.sequence mixed) = some text ∧ HasTagsOf mixed text) ∧
      entries? mixedListing = some [⟨"A", .ofList [("parents", .sequence mixed)]⟩] ∧
      ∃ d text, read "a.yaml" mixedListing = .ok [d] ∧ d.attributes.get? "parents" = some text ∧
        splitTags text = ["B", "C", "D", "true"] := by
  obtain ⟨hlist, hlisting, -⟩ := lists_split_like_their_scalars
  have hscalar : ∀ v ∈ mixed, IsScalar v := by simp [mixed, IsScalar]
  refine ⟨hscalar, hlist mixed hscalar, entries?_mixedListing, ?_⟩
  obtain ⟨hread, hkept⟩ := hlisting "a.yaml" mixedListing _ entries?_mixedListing
  obtain ⟨declarations, hdeclarations⟩ := hread.mpr <| by
    rw [List.forall_mem_singleton]
    exact List.forall_mem_singleton.mpr hscalar
  obtain ⟨d, _, hd, hnil, rfl⟩ := List.forall₂_cons_left_iff.mp (hkept _ hdeclarations)
  obtain rfl := List.forall₂_nil_left_iff.mp hnil
  obtain ⟨text, htext, texts, htexts, hsplit, -⟩ := hd "parents" mixed rfl
  have hmixed : mixed.mapM scalarText? = some [" B", "", "C,D", "true"] := rfl
  rw [mapM_eq_some_iff.mpr htexts, Option.some.injEq] at hmixed
  refine ⟨d, text, hdeclarations, htext, ?_⟩
  rw [hsplit, hmixed]
  decide +kernel

end Traceability.Document.Listing
