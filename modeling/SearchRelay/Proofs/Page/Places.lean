import SearchRelay.Proofs.Page
import SearchRelay.Proofs.Page.Escapes

namespace SearchRelay.Page

open Json (Glyph Place Decoder)

def Piece.isFixed : Piece → Bool
  | .text _ | .value .title => true
  | _ => false

def Piece.fixed : Piece → String
  | .text s => s
  | .value .title => "Cedar"
  | _ => ""

def front : List Piece := template.takeWhile Piece.isFixed

def middle : List Piece := (template.drop (front.length + 1)).takeWhile Piece.isFixed

def back : List Piece := template.drop (front.length + middle.length + 2)

def textOf (ps : List Piece) : String := String.join (ps.map Piece.fixed)

/-- The label and the path have one place each. -/
theorem template_eq :
    template = front ++ .value .controller :: (middle ++ .script .path :: back) := rfl

theorem isFixed_of_mem {p : Piece} (h : p ∈ front ++ middle ++ back) : p.isFixed := by
  revert p
  decide +kernel

theorem shown_of_isFixed {p : Piece} (h : p.isFixed) (label : String) :
    p.shown label = p.fixed := by
  cases p with
  | text s => rfl
  | value slot =>
    cases slot with
    | title => exact (by decide : markup title = "Cedar")
    | controller | path => cases h
  | script slot => cases h

def around (shown script : String) : String :=
  textOf front ++ shown ++ textOf middle ++ script ++ textOf back

theorem render_places (path label : String) :
    render path label = .ok (around (markup label) (scriptString path)) := by
  have hfixed (ps : List Piece) (h : ∀ p ∈ ps, p ∈ front ++ middle ++ back) :
      String.join (ps.map (Piece.shown label)) = textOf ps := by
    rw [textOf, List.map_congr_left fun p hp => shown_of_isFixed (isFixed_of_mem (h p hp)) label]
  have habove : above label = textOf front ++ markup label ++ textOf middle := by
    have hpieces : template.takeWhile (· ≠ .script .path) =
        front ++ .value .controller :: middle := rfl
    rw [above, hpieces, List.map_append, List.map_cons, String.join_append, String.join_cons,
      hfixed front (by simp +contextual), hfixed middle (by simp +contextual)]
    simp [Piece.shown, String.append_assoc]
  have hbelow : below label = textOf back := by
    have hpieces : (template.dropWhile (· ≠ .script .path)).tail = back := rfl
    rw [below, hpieces, hfixed back (by simp +contextual)]
  rw [render_eq, habove, hbelow, around]

/-- What was read of the tag that is open, if one is, after another character. -/
def nextTag (tag : Option (List Char)) (c : Char) : Option (List Char) :=
  match tag with
  | none => if c = '<' then some [] else none
  | some tag => if c = '>' then none else some (tag ++ [c])

def closedTag (tag : Option (List Char)) (c : Char) : List (List Char) :=
  if c = '>' then tag.toList else []

def tagsFrom (tag : Option (List Char)) : List Char → List (List Char)
  | [] => []
  | c :: r => closedTag tag c ++ tagsFrom (nextTag tag c) r

def tags (html : String) : List (List Char) := tagsFrom none html.toList

theorem tagsFrom_append (tag : Option (List Char)) (text more : List Char) :
    tagsFrom tag (text ++ more) = tagsFrom tag text ++ tagsFrom (text.foldl nextTag tag) more := by
  induction text generalizing tag with
  | nil => rfl
  | cons c text ih =>
    rw [List.cons_append, tagsFrom, tagsFrom, ih, List.append_assoc, List.foldl_cons]

theorem between_tags {text : List Char} (plain : ∀ c ∈ text, c ≠ '<') :
    text.foldl nextTag none = none ∧ tagsFrom none text = [] := by
  induction text with
  | nil => exact ⟨rfl, rfl⟩
  | cons c text ih =>
    obtain ⟨hc, htext⟩ := List.forall_mem_cons.1 plain
    have hnext : nextTag none c = none := if_neg hc
    have hclosed : closedTag none c = [] := ite_self []
    rw [List.foldl_cons, tagsFrom, hnext, hclosed]
    exact ih htext

theorem toList_textOf (ps : List Piece) :
    (textOf ps).toList = ps.flatMap fun p => p.fixed.toList := by
  simp [textOf, List.flatMap_map]

/-- Behind a text that leaves no tag open, a text without `<` is passed over. -/
theorem tagsFrom_insert {text plain : List Char} (closed : text.foldl nextTag none = none)
    (hplain : ∀ c ∈ plain, c ≠ '<') (more : List Char) :
    tagsFrom none (text ++ (plain ++ more)) = tagsFrom none text ++ tagsFrom none more := by
  obtain ⟨hbehind, hnone⟩ := between_tags hplain
  rw [tagsFrom_append, closed, tagsFrom_append, hbehind, hnone, List.nil_append]

theorem front_closed : (textOf front).toList.foldl nextTag none = none := by
  rw [toList_textOf]
  decide +kernel

theorem middle_closed : (textOf middle).toList.foldl nextTag none = none := by
  rw [toList_textOf]
  decide +kernel

/-- What has no `<` in it brings no tag into the page, and closes none. -/
theorem tags_around {shown script : String} (hshown : ∀ c ∈ shown.toList, c ≠ '<')
    (hscript : ∀ c ∈ script.toList, c ≠ '<') : tags (around shown script) =
      tags (textOf front) ++ (tags (textOf middle) ++ tags (textOf back)) := by
  rw [tags, around]
  simp only [String.toList_append, List.append_assoc]
  rw [tagsFrom_insert front_closed hshown, tagsFrom_insert middle_closed hscript]
  rfl

/-- Texts end where a `<` follows that is in none of them. -/
theorem append_tag_inj {text text' more more' : List Char} (plain : ∀ c ∈ text, c ≠ '<')
    (plain' : ∀ c ∈ text', c ≠ '<') (h : text ++ '<' :: more = text' ++ '<' :: more') :
    text = text' ∧ more = more' := by
  have htake {text : List Char} (plain : ∀ c ∈ text, c ≠ '<') (more : List Char) :
      (text ++ '<' :: more).takeWhile (· ≠ '<') = text := by
    rw [List.takeWhile_append_of_pos (by simpa using plain)]
    simp
  have htext : text = text' := by
    rw [← htake plain more, h, htake plain' more']
  subst htext
  exact ⟨rfl, (List.cons.inj (List.append_cancel_left h)).2⟩

theorem middle_opens : ∃ r, (textOf middle).toList = '<' :: r := by
  have hfirst : middle = .text "</span></p>\n" :: middle.tail := rfl
  have hopens : "</span></p>\n".toList = '<' :: "/span></p>\n".toList := by decide
  rw [toList_textOf, hfirst, List.flatMap_cons, Piece.fixed, hopens, List.cons_append]
  exact ⟨_, rfl⟩

theorem around_injective {shown script shown' script' : String}
    (hshown : ∀ c ∈ shown.toList, c ≠ '<') (hshown' : ∀ c ∈ shown'.toList, c ≠ '<')
    (h : around shown script = around shown' script') : shown = shown' ∧ script = script' := by
  obtain ⟨r, hr⟩ := middle_opens
  have hlist : (around shown script).toList = (around shown' script').toList := by rw [h]
  simp only [around, String.toList_append, List.append_assoc] at hlist
  replace hlist := List.append_cancel_left hlist
  rw [hr, List.cons_append, List.cons_append] at hlist
  obtain ⟨hs, hrest⟩ := append_tag_inj hshown hshown' hlist
  have hscript := List.append_cancel_right (List.append_cancel_left hrest)
  exact ⟨String.toList_inj.1 hs, String.toList_inj.1 hscript⟩

/-- A page with a label and a path in their places, from which neither gets out. -/
structure Faithful (path label html : String) : Prop where
  places : template = front ++ .value .controller :: (middle ++ .script .path :: back) ∧
    ∀ p ∈ front ++ middle ++ back, p.isFixed
  text : html =
    textOf front ++ markup label ++ textOf middle ++ scriptString path ++ textOf back
  labelSafe : ∀ c ∈ (markup label).toList, c ≠ '<' ∧ c ≠ '>' ∧ c ≠ '"' ∧ c ≠ '\''
  labelReferences (before behind : List Char) :
    (markup label).toList = before ++ '&' :: behind → ∃ e ∈ escapes, e <+: '&' :: behind
  labelBack (known : References) : known.resolve none (markup label).toList = label.toList
  pathSafe : ∀ c ∈ (scriptString path).toList,
    c ≠ '<' ∧ c ≠ '>' ∧ c ≠ '&' ∧ c ≠ '\'' ∧ 0x20 ≤ c.toNat
  /-- The place of the path holds one string of JSON, from quote to quote. -/
  pathString : ∃ gs : List Glyph,
    (scriptString path).toList = Glyph.quoted gs ∧ Glyph.spell? gs = some path.toList
  pathBack (expected : String) : (Decoder.text expected).run (scriptString path) = .ok path
  /-- Who reads on behind the string reads the template. -/
  pathEnds (expected : String) (depth : Nat) (p : Place) :
    ∃ q, Decoder.text expected depth ⟨(scriptString path).toList ++ (textOf back).toList, p⟩ =
      .ok (path, ⟨(textOf back).toList, q⟩)
  tags : tags html = tags (textOf front) ++ (tags (textOf middle) ++ tags (textOf back))
  unique (path' label' : String) : render path' label' = .ok html → path' = path ∧ label' = label

theorem isScriptMarkup_eq_false_iff {c : Char} :
    isScriptMarkup c = false ↔ c ≠ '<' ∧ c ≠ '>' ∧ c ≠ '&' ∧ c ≠ '\'' := by
  simp [isScriptMarkup, and_assoc]

/-- Every path and every label have a page, and it is theirs alone. -/
theorem render_faithful (path label : String) :
    ∃ html, render path label = .ok html ∧ Faithful path label html := by
  have shown (label : String) : ∀ c ∈ (markup label).toList, c ≠ '<' := fun c hc =>
    (markup_safe hc).1
  have script : ∀ c ∈ (scriptString path).toList,
      c ≠ '<' ∧ c ≠ '>' ∧ c ≠ '&' ∧ c ≠ '\'' ∧ 0x20 ≤ c.toNat := fun c hc => by
    obtain ⟨hmarkup, hcontrol⟩ := scriptString_safe hc
    obtain ⟨hlt, hgt, hamp, happ⟩ := isScriptMarkup_eq_false_iff.1 hmarkup
    exact ⟨hlt, hgt, hamp, happ, hcontrol⟩
  refine ⟨_, render_places path label, ?_⟩
  constructor
  case places => exact ⟨template_eq, fun p hp => isFixed_of_mem hp⟩
  case text => rfl
  case labelSafe => exact fun c hc => markup_safe hc
  case labelReferences => exact fun _ _ h => markup_references h
  case labelBack => exact fun known => known.resolve_markup label
  case pathSafe => exact script
  case pathString => exact scriptString_spells path
  case pathBack => exact run_scriptString path
  case pathEnds => exact fun expected depth p => text_scriptString path expected depth _ p
  case tags => exact tags_around (shown label) fun c hc => (script c hc).1
  case unique =>
    intro path' label' h
    rw [render_places, Except.ok.injEq] at h
    -- The template is the same around both places, so equal pages have equal texts in them.
    obtain ⟨hlabel, hpath⟩ := around_injective (shown label') (shown label) h
    exact ⟨scriptString_injective hpath, markup_injective hlabel⟩

end SearchRelay.Page
