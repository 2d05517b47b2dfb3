import XPathQuery.Proofs.WrittenScopes

/-!
The names that the reader of markup lets through. A name has a local part, so no
attribute declares the empty prefix, on whatever level of a document it is written.
-/
namespace XPathQuery.Markup

theorem ofList_ne_empty {cs : List Char} (h : startsName cs = true) : String.ofList cs ≠ "" := by
  cases cs with
  | nil => cases h
  | cons c cs => simp

theorem localPart_of_writtenName {cs rest : List Char} {name : WrittenName}
    (h : writtenName cs = some (name, rest)) : name.localPart ≠ "" := by
  simp only [writtenName] at h
  split at h
  · split at h
    case isTrue hstart =>
      obtain ⟨rfl, -⟩ := Prod.mk.inj (Option.some.inj h)
      exact ofList_ne_empty hstart
    case isFalse => cases h
  · split at h
    case isTrue hparts =>
      obtain ⟨rfl, -⟩ := Prod.mk.inj (Option.some.inj h)
      exact ofList_ne_empty (Bool.and_eq_true_iff.mp hparts).2
    case isFalse => cases h

theorem localPart_of_writtenAttribute {cs rest : List Char} {a : WrittenAttribute}
    (h : writtenAttribute cs = some (a, rest)) : a.name.localPart ≠ "" := by
  rw [writtenAttribute] at h
  split at h
  case h_1 => cases h
  case h_2 name value after hraw =>
    obtain ⟨ps, -, hps⟩ := Option.map_eq_some_iff.mp h
    obtain ⟨rfl, -⟩ := Prod.mk.inj hps
    rw [rawAttribute] at hraw
    split at hraw
    case h_1 => cases hraw
    case h_2 name' rest' hname =>
      split at hraw
      case h_2 => cases hraw
      case h_1 =>
        simp only [] at hraw
        split at hraw
        case isFalse => cases hraw
        case isTrue =>
          simp only [Option.some.injEq, Prod.mk.injEq] at hraw
          rw [← hraw.1.1]
          exact localPart_of_writtenName hname

theorem localPart_of_attributesWithin {bound cs rest : List Char}
    {attributes : List WrittenAttribute} {tagEnd : TagEnd}
    (h : attributesWithin bound cs = some ((attributes, tagEnd), rest)) :
    ∀ a ∈ attributes, a.name.localPart ≠ "" := by
  induction bound generalizing cs rest attributes tagEnd with
  | nil => cases h
  | cons _ bound ih =>
    rw [attributesWithin] at h
    split at h
    · simp only [Option.some.injEq, Prod.mk.injEq] at h
      simp [← h.1.1]
    · simp only [Option.some.injEq, Prod.mk.injEq] at h
      simp [← h.1.1]
    · split at h
      case isFalse => cases h
      case isTrue =>
        split at h
        case h_1 => cases h
        case h_2 a after ha =>
          obtain ⟨⟨⟨others, tagEnd'⟩, rest'⟩, hothers, heq⟩ := Option.map_eq_some_iff.mp h
          simp only [Prod.mk.injEq] at heq
          rw [← heq.1.1]
          intro b hb
          rcases List.mem_cons.mp hb with rfl | hb
          · exact localPart_of_writtenAttribute ha
          · exact ih hothers b hb

theorem localPart_of_startTag {cs rest : List Char} {tag : StartTag}
    (h : startTag cs = some (tag, rest)) : ∀ a ∈ tag.attributes, a.name.localPart ≠ "" := by
  rw [startTag] at h
  split at h
  case h_1 => cases h
  case h_2 =>
    split at h
    case isTrue => cases h
    case isFalse =>
      obtain ⟨⟨⟨attributes, tagEnd⟩, after⟩, hattributes, heq⟩ := Option.map_eq_some_iff.mp h
      obtain ⟨rfl, -⟩ := Prod.mk.inj heq
      exact localPart_of_attributesWithin hattributes

inductive Item.Named : Item → Prop
  | text (content : String) : Named (.text content)
  | comment (content : String) : Named (.comment content)
  | instruction (target content : String) : Named (.instruction target content)
  | element {attributes : List WrittenAttribute} {content : List Item} (name : WrittenName)
      (hattributes : ∀ a ∈ attributes, a.name.localPart ≠ "")
      (hcontent : ∀ item ∈ content, Named item) : Named (.element name attributes content)

theorem named_of_comment {cs rest : List Char} {item : Item}
    (h : comment cs = some (item, rest)) : item.Named := by
  rw [comment] at h
  split at h
  case h_1 => cases h
  case h_2 =>
    split at h
    case isTrue => cases h
    case isFalse =>
      obtain ⟨rfl, -⟩ := Prod.mk.inj (Option.some.inj h)
      exact .comment _

theorem named_of_instruction {cs rest : List Char} {item : Item}
    (h : instruction cs = some (item, rest)) : item.Named := by
  simp only [instruction] at h
  split at h
  case isTrue => cases h
  case isFalse =>
    obtain ⟨_, -, heq⟩ := Option.map_eq_some_iff.mp h
    obtain ⟨rfl, -⟩ := Prod.mk.inj heq
    exact .instruction _ _

def Part.Named : Part → Prop
  | .opening tag => ∀ a ∈ tag.attributes, a.name.localPart ≠ ""
  | .item found => found.Named
  | .closing _ | .text _ => True

theorem named_of_part {cs rest : List Char} {found : Part} (h : part cs = some (found, rest)) :
    found.Named := by
  unfold part at h
  split at h
  · obtain ⟨_, -, heq⟩ := Option.map_eq_some_iff.mp h
    obtain ⟨rfl, -⟩ := Prod.mk.inj heq
    trivial
  · obtain ⟨⟨item, _⟩, hitem, heq⟩ := Option.map_eq_some_iff.mp h
    obtain ⟨rfl, -⟩ := Prod.mk.inj heq
    exact named_of_instruction hitem
  · obtain ⟨⟨item, _⟩, hitem, heq⟩ := Option.map_eq_some_iff.mp h
    obtain ⟨rfl, -⟩ := Prod.mk.inj heq
    exact named_of_comment hitem
  · split at h
    case h_2 => cases h
    case h_1 =>
      obtain ⟨_, -, heq⟩ := Option.map_eq_some_iff.mp h
      obtain ⟨rfl, -⟩ := Prod.mk.inj heq
      trivial
  · obtain ⟨⟨tag, _⟩, htag, heq⟩ := Option.map_eq_some_iff.mp h
    obtain ⟨rfl, -⟩ := Prod.mk.inj heq
    exact localPart_of_startTag htag
  · obtain ⟨_, -, heq⟩ := Option.map_eq_some_iff.mp h
    obtain ⟨rfl, -⟩ := Prod.mk.inj heq
    trivial

theorem named_joinText (content : String) {items : List Item}
    (h : ∀ item ∈ items, item.Named) : ∀ item ∈ joinText content items, item.Named := by
  unfold joinText
  split
  · rw [List.forall_mem_cons] at h ⊢
    exact ⟨.text _, h.2⟩
  · rw [List.forall_mem_cons]
    exact ⟨.text _, h⟩

theorem named_of_contentWithin {bound cs rest : List Char} {items : List Item}
    {closing : WrittenName} (h : contentWithin bound cs = some ((items, closing), rest)) :
    ∀ item ∈ items, item.Named := by
  induction bound generalizing cs rest items closing with
  | nil => cases h
  | cons _ bound ih =>
    rw [contentWithin] at h
    split at h
    case h_1 => cases h
    case h_2 =>
      simp only [Option.some.injEq, Prod.mk.injEq] at h
      simp [← h.1.1]
    case h_3 item after hpart =>
      obtain ⟨⟨⟨others, _⟩, _⟩, hothers, heq⟩ := Option.map_eq_some_iff.mp h
      simp only [Prod.mk.injEq] at heq
      rw [← heq.1.1, List.forall_mem_cons]
      exact ⟨named_of_part hpart, ih hothers⟩
    case h_4 content after hpart =>
      obtain ⟨⟨⟨others, _⟩, _⟩, hothers, heq⟩ := Option.map_eq_some_iff.mp h
      simp only [Prod.mk.injEq] at heq
      rw [← heq.1.1]
      exact named_joinText content (ih hothers)
    case h_5 tag after hpart =>
      have htag : ∀ a ∈ tag.attributes, a.name.localPart ≠ "" := named_of_part hpart
      split at h
      · obtain ⟨⟨⟨others, _⟩, _⟩, hothers, heq⟩ := Option.map_eq_some_iff.mp h
        simp only [Prod.mk.injEq] at heq
        rw [← heq.1.1, List.forall_mem_cons]
        exact ⟨.element tag.name htag (by simp), ih hothers⟩
      · split at h
        case h_1 => cases h
        case h_2 inner _ _ hinner =>
          split at h
          case isFalse => cases h
          case isTrue =>
            obtain ⟨⟨⟨others, _⟩, _⟩, hothers, heq⟩ := Option.map_eq_some_iff.mp h
            simp only [Prod.mk.injEq] at heq
            rw [← heq.1.1, List.forall_mem_cons]
            exact ⟨.element tag.name htag (ih hinner), ih hothers⟩

theorem named_of_element {cs rest : List Char} {item : Item}
    (h : element cs = some (item, rest)) : item.Named := by
  rw [element] at h
  split at h
  case h_1 => cases h
  case h_2 tag after htag =>
    split at h
    · obtain ⟨rfl, -⟩ := Prod.mk.inj (Option.some.inj h)
      exact .element tag.name (localPart_of_startTag htag) (by simp)
    · split at h
      case h_2 => cases h
      case h_1 hinner =>
        split at h
        case isFalse => cases h
        case isTrue =>
          obtain ⟨rfl, -⟩ := Prod.mk.inj (Option.some.inj h)
          exact .element tag.name (localPart_of_startTag htag) (named_of_contentWithin hinner)

theorem named_of_miscWithin {bound cs rest : List Char} {items : List Item}
    (h : miscWithin bound cs = some (items, rest)) : ∀ item ∈ items, item.Named := by
  induction bound generalizing cs rest items with
  | nil =>
    obtain ⟨rfl, -⟩ := Prod.mk.inj (Option.some.inj h)
    simp
  | cons _ bound ih =>
    simp only [miscWithin] at h
    split at h
    · split at h
      case h_2 => cases h
      case h_1 hitem =>
        obtain ⟨⟨others, _⟩, hothers, heq⟩ := Option.map_eq_some_iff.mp h
        obtain ⟨rfl, -⟩ := Prod.mk.inj heq
        rw [List.forall_mem_cons]
        exact ⟨named_of_comment hitem, ih hothers⟩
    · split at h
      case h_2 => cases h
      case h_1 hitem =>
        obtain ⟨⟨others, _⟩, hothers, heq⟩ := Option.map_eq_some_iff.mp h
        obtain ⟨rfl, -⟩ := Prod.mk.inj heq
        rw [List.forall_mem_cons]
        exact ⟨named_of_instruction hitem, ih hothers⟩
    · obtain ⟨rfl, -⟩ := Prod.mk.inj (Option.some.inj h)
      simp

theorem named_of_document {cs : List Char} {items : List Item} (h : document cs = some items) :
    ∀ item ∈ items, item.Named := by
  simp only [document, Option.bind_eq_bind, Option.bind_eq_some_iff] at h
  obtain ⟨_, -, ⟨before, _⟩, hbefore, ⟨root, _⟩, ⟨_, -, hroot⟩, ⟨after, _⟩, hafter, h⟩ := h
  split at h
  case isFalse => cases h
  case isTrue =>
    obtain rfl := Option.some.inj h
    rw [List.forall_mem_append, List.forall_mem_cons]
    exact ⟨named_of_miscWithin hbefore, named_of_element hroot, named_of_miscWithin hafter⟩

theorem named_contentAt {items : List Item} (h : ∀ item ∈ items, item.Named) (a : Address) :
    ∀ item ∈ contentAt items a, item.Named := by
  induction a with
  | nil => exact h
  | cons branch parent ih =>
    rcases branch with i | i
    · simp [contentAt]
    · rw [contentAt]
      cases hitem : (contentAt items parent)[i]? with
      | none => simp
      | some item =>
        cases ih item (List.mem_of_getElem? hitem) with
        | element _ _ hcontent => simpa [Item.content] using hcontent
        | _ => simp [Item.content]

/-- No attribute of a document is without a local part. -/
theorem localPart_attributesAt {items : List Item} (h : ∀ item ∈ items, item.Named) (a : Address) :
    ∀ w ∈ attributesAt items a, w.name.localPart ≠ "" := by
  rcases a with _ | ⟨i | i, parent⟩
  · simp [attributesAt]
  · simp [attributesAt]
  · rw [attributesAt]
    cases hitem : (contentAt items parent)[i]? with
    | none => simp
    | some item =>
      cases named_contentAt h parent item (List.mem_of_getElem? hitem) with
      | element _ hattributes _ => simpa [Item.attributes] using hattributes
      | _ => simp [Item.attributes]

end XPathQuery.Markup
