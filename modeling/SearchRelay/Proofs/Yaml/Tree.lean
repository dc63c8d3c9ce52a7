import SearchRelay.Proofs.Form
import SearchRelay.Yaml.Decoder

/-!
Documents as trees: what a decoder makes of a node, or that it makes nothing of it, does not depend
on where the parts of the node stand in the text.
-/

namespace SearchRelay.Yaml

inductive Tree
  | scalar (value : Scalar)
  | sequence (items : List Tree)
  | mapping (members : List (Tree × Tree))

namespace Tree

def text? : Tree → Option String
  | scalar s => some s.text
  | _ => none

mutual

def node : Tree → Node
  | scalar s => .scalar .start s
  | sequence items => .sequence .start (itemNodes items)
  | mapping members => .mapping .start (memberNodes members)

def itemNodes : List Tree → List Node
  | [] => []
  | t :: r => t.node :: itemNodes r

def memberNodes : List (Tree × Tree) → List (Node × Node)
  | [] => []
  | (k, v) :: r => (k.node, v.node) :: memberNodes r

end

end Tree

namespace Node

mutual

/-- The tree of a node in which nothing is missing, and that refers to no other. -/
def tree? : Node → Option Tree
  | .scalar _ s => some (.scalar s)
  | .sequence _ items => (itemTrees? items).map .sequence
  | .mapping _ members => (memberTrees? members).map .mapping
  | _ => none

def itemTrees? : List Node → Option (List Tree)
  | [] => some []
  | n :: r => n.tree?.bind fun t => (itemTrees? r).map (t :: ·)

def memberTrees? : List (Node × Node) → Option (List (Tree × Tree))
  | [] => some []
  | (k, v) :: r => k.tree?.bind fun t => v.tree?.bind fun u => (memberTrees? r).map ((t, u) :: ·)

end

mutual

theorem tree?_node : ∀ t : Tree, t.node.tree? = some t
  | .scalar s => rfl
  | .sequence items => by rw [Tree.node, tree?, itemTrees?_nodes items]; rfl
  | .mapping members => by rw [Tree.node, tree?, memberTrees?_nodes members]; rfl

theorem itemTrees?_nodes : ∀ items : List Tree, itemTrees? (Tree.itemNodes items) = some items
  | [] => rfl
  | t :: r => by rw [Tree.itemNodes, itemTrees?, tree?_node t, itemTrees?_nodes r]; rfl

theorem memberTrees?_nodes :
    ∀ members : List (Tree × Tree), memberTrees? (Tree.memberNodes members) = some members
  | [] => rfl
  | (k, v) :: r => by
    rw [Tree.memberNodes, memberTrees?, tree?_node k, tree?_node v, memberTrees?_nodes r]; rfl

end

mutual

/-- A node with a tree has no defect. -/
theorem defect?_of_tree : ∀ (n : Node) {t : Tree}, n.tree? = some t → n.defect? = none
  | .scalar _ _ => fun _ => rfl
  | .sequence _ items => fun h => by
    obtain ⟨ts, hts, -⟩ := Option.map_eq_some_iff.1 (h : (itemTrees? items).map _ = _)
    exact defectOfItems?_of_trees items hts
  | .mapping _ members => fun h => by
    obtain ⟨ts, hts, -⟩ := Option.map_eq_some_iff.1 (h : (memberTrees? members).map _ = _)
    exact defectOfMembers?_of_trees members hts
  | .reference _ | .absent | .broken _ => fun h => by cases h

theorem defectOfItems?_of_trees :
    ∀ (items : List Node) {ts : List Tree}, itemTrees? items = some ts → defectOfItems? items = none
  | [], _, _ => rfl
  | n :: r, ts, h => by
    obtain ⟨t, ht, hr⟩ := Option.bind_eq_some_iff.1 h
    obtain ⟨ts, hts, -⟩ := Option.map_eq_some_iff.1 hr
    rw [defectOfItems?, defect?_of_tree n ht, defectOfItems?_of_trees r hts]
    rfl

theorem defectOfMembers?_of_trees :
    ∀ (members : List (Node × Node)) {ts : List (Tree × Tree)}, memberTrees? members = some ts →
      defectOfMembers? members = none
  | [], _, _ => rfl
  | (k, v) :: r, ts, h => by
    obtain ⟨t, ht, hr⟩ := Option.bind_eq_some_iff.1 h
    obtain ⟨u, hu, hr⟩ := Option.bind_eq_some_iff.1 hr
    obtain ⟨ts, hts, -⟩ := Option.map_eq_some_iff.1 hr
    rw [defectOfMembers?, defect?_of_tree k ht, defect?_of_tree v hu,
      defectOfMembers?_of_trees r hts]
    rfl

end

variable {n : Node}

theorem eq_scalar_of_tree {s : Scalar} (h : n.tree? = some (.scalar s)) :
    ∃ m, n = .scalar m s := by
  cases n with
  | scalar m s' =>
    obtain ⟨⟩ := h
    exact ⟨m, rfl⟩
  | sequence m items =>
    obtain ⟨ts, -, hts⟩ := Option.map_eq_some_iff.1 (h : (itemTrees? items).map _ = _)
    cases hts
  | mapping m members =>
    obtain ⟨ts, -, hts⟩ := Option.map_eq_some_iff.1 (h : (memberTrees? members).map _ = _)
    cases hts
  | reference | absent | broken => cases h

theorem eq_sequence_of_tree {ts : List Tree} (h : n.tree? = some (.sequence ts)) :
    ∃ m items, n = .sequence m items ∧ itemTrees? items = some ts := by
  cases n with
  | sequence m items =>
    obtain ⟨ts', hts, heq⟩ := Option.map_eq_some_iff.1 (h : (itemTrees? items).map _ = _)
    obtain ⟨⟩ := heq
    exact ⟨m, items, rfl, hts⟩
  | mapping m members =>
    obtain ⟨ts', -, hts⟩ := Option.map_eq_some_iff.1 (h : (memberTrees? members).map _ = _)
    cases hts
  | scalar | reference | absent | broken => cases h

theorem eq_mapping_of_tree {ts : List (Tree × Tree)} (h : n.tree? = some (.mapping ts)) :
    ∃ m members, n = .mapping m members ∧ memberTrees? members = some ts := by
  cases n with
  | mapping m members =>
    obtain ⟨ts', hts, heq⟩ := Option.map_eq_some_iff.1 (h : (memberTrees? members).map _ = _)
    obtain ⟨⟩ := heq
    exact ⟨m, members, rfl, hts⟩
  | sequence m items =>
    obtain ⟨ts', -, hts⟩ := Option.map_eq_some_iff.1 (h : (itemTrees? items).map _ = _)
    cases hts
  | scalar | reference | absent | broken => cases h

end Node

theorem Document.resolve_of_tree {n : Node} {t : Tree} (h : n.tree? = some t) (d : Document) :
    d.resolve n = n := by
  cases n with
  | reference => cases h
  | scalar | sequence | mapping | absent | broken => rfl

namespace Decoder

variable {α σ : Type} {n : Node} {t : Tree}

def made (decoder : Decoder α) (t : Tree) : Option α :=
  (decoder ⟨.absent, none, [], {}, false⟩ [] t.node).toOption

/-- A decoder that looks at nothing but the tree of a node. -/
def Steady (decoder : Decoder α) : Prop :=
  ∀ d path n t, n.tree? = some t → (decoder d path n).toOption = made decoder t

theorem Steady.of_same {decoder : Decoder α}
    (h : ∀ t, ∃ r, ∀ d path n, n.tree? = some t → (decoder d path n).toOption = r) :
    Steady decoder := by
  intro d path n t hn
  obtain ⟨r, hr⟩ := h t
  rw [hr d path n hn, made, hr _ _ _ (Node.tree?_node t)]

theorem made_eq {decoder : Decoder α} {t : Tree} {r : Option α}
    (h : ∀ d path n, n.tree? = some t → (decoder d path n).toOption = r) : made decoder t = r :=
  h _ _ _ (Node.tree?_node t)

theorem text_of_tree (expected : String) (d : Document) (path : Path) (hn : n.tree? = some t) :
    (text expected d path n).toOption = t.text? := by
  rw [text, d.resolve_of_tree hn]
  cases t with
  | scalar s =>
    obtain ⟨m, rfl⟩ := Node.eq_scalar_of_tree hn
    rfl
  | sequence ts =>
    obtain ⟨m, items, rfl, -⟩ := Node.eq_sequence_of_tree hn
    rfl
  | mapping ts =>
    obtain ⟨m, members, rfl, -⟩ := Node.eq_mapping_of_tree hn
    rfl

theorem Steady.text (expected : String) : Steady (Decoder.text expected) :=
  .of_same fun t => ⟨t.text?, fun d path _ hn => text_of_tree expected d path hn⟩

def number? : Tree → Option Nat
  | .scalar s => if s.canBeInteger then Resolve.unsigned? s.text.toList else none
  | _ => none

theorem unsigned_of_tree (max : Nat) (expected : String) (d : Document) (path : Path)
    (hn : n.tree? = some t) : (unsigned max expected d path n).toOption =
      (number? t).filter (· ≤ max) := by
  rw [unsigned, d.resolve_of_tree hn]
  cases t with
  | scalar s =>
    obtain ⟨m, rfl⟩ := Node.eq_scalar_of_tree hn
    simp only [number?]
    cases (if s.canBeInteger then Resolve.unsigned? s.text.toList else none) with
    | none => rfl
    | some k =>
      by_cases hk : k ≤ max
      · simp [hk, Except.toOption, Option.filter]
      · simp [hk, Except.toOption, Option.filter]
  | sequence ts =>
    obtain ⟨m, items, rfl, -⟩ := Node.eq_sequence_of_tree hn
    rfl
  | mapping ts =>
    obtain ⟨m, members, rfl, -⟩ := Node.eq_mapping_of_tree hn
    rfl

theorem Steady.unsigned (max : Nat) (expected : String) :
    Steady (Decoder.unsigned max expected) :=
  .of_same fun _ => ⟨_, fun d path _ hn => unsigned_of_tree max expected d path hn⟩

theorem items_of_trees {item : Decoder α} (h : Steady item) {ns : List Node} {ts : List Tree}
    (hns : Node.itemTrees? ns = some ts) (d : Document) (path : Path) (i : Nat) :
    (items item d path i ns).toOption = ts.mapM (made item) := by
  induction ns generalizing ts i with
  | nil =>
    obtain ⟨⟩ := hns
    rfl
  | cons n ns ih =>
    obtain ⟨t, ht, hr⟩ := Option.bind_eq_some_iff.1 hns
    obtain ⟨ts, hts, rfl⟩ := Option.map_eq_some_iff.1 hr
    have hfirst := h d (path ++ [.item i]) n t ht
    have hrest := ih hts (i + 1)
    rw [List.mapM_cons, ← hfirst, ← hrest, items]
    cases item d (path ++ [.item i]) n with
    | error e => rfl
    | ok a =>
      cases items item d path (i + 1) ns with
      | error e => rfl
      | ok as => rfl

/-- The items of a sequence; a scalar without text has none. -/
def elements? (item : Tree → Option α) : Tree → Option (List α)
  | .sequence ts => ts.mapM item
  | .scalar s => if s.isVoid then some [] else none
  | .mapping _ => none

theorem list_of_tree {item : Decoder α} (h : Steady item) (d : Document) (path : Path)
    (hn : n.tree? = some t) : (list item d path n).toOption = elements? (made item) t := by
  rw [list, d.resolve_of_tree hn]
  cases t with
  | scalar s =>
    obtain ⟨m, rfl⟩ := Node.eq_scalar_of_tree hn
    simp only [elements?]
    split <;> rfl
  | sequence ts =>
    obtain ⟨m, ns, rfl, hns⟩ := Node.eq_sequence_of_tree hn
    exact items_of_trees h hns d path 0
  | mapping ts =>
    obtain ⟨m, ms, rfl, -⟩ := Node.eq_mapping_of_tree hn
    rfl

theorem Steady.list {item : Decoder α} (h : Steady item) : Steady (Decoder.list item) :=
  .of_same fun _ => ⟨_, fun d path _ hn => list_of_tree h d path hn⟩

def Field.entry (f : Field σ) : Form.Entry Tree σ := (f.name, made f.read)

/-- The form of a record that can do without any of its fields. -/
def form (fields : List (Field σ)) : Form Tree σ := .ofFields (fields.map Field.entry) []

theorem known_form (fields : List (Field σ)) : (form fields).known = fields.map Field.name :=
  List.map_map

theorem find?_entry {fields : List (Field σ)} {name : String} :
    ((fields.map Field.entry).find? fun f => f.1 == name) =
      (fields.find? fun f => f.name == name).map Field.entry := List.find?_map

theorem effect_known {fields : List (Field σ)} {name : String} {f : Field σ}
    (known : (fields.find? fun f => f.name == name) = some f) (t : Tree) :
    (form fields).effect name t = made f.read t :=
  Form.effect_known (f := f.entry) (find?_entry.trans (by rw [known]; rfl)) t

theorem effect_unknown {fields : List (Field σ)} {name : String}
    (unknown : name ∉ (form fields).known) (t : Tree) :
    (form fields).effect name t = some id := Form.effect_unknown unknown t

theorem mem_known {fields : List (Field σ)} {name : String} :
    name ∈ (form fields).known ↔ (fields.find? fun f => f.name == name).isSome := by
  simp [known_form, List.find?_isSome]

def named (ms : List (Tree × Tree)) : List (Option String × Tree) :=
  ms.map fun m => (m.1.text?, m.2)

theorem key_of_tree (d : Document) (path : Path) (hn : n.tree? = some t) :
    (key d path n).toOption.map Prod.fst = t.text? := by
  have htext := text_of_tree "field identifier" d path hn
  rw [← htext, key]
  cases text "field identifier" d path n <;> rfl

theorem members_fill {fields : List (Field σ)} (steady : ∀ f ∈ fields, Steady f.read)
    {ms : List (Node × Node)} {ts : List (Tree × Tree)} (hms : Node.memberTrees? ms = some ts)
    (d : Document) (path : Path) (m : Mark) {seen names : List String}
    (hseen : ∀ name ∈ (form fields).known, name ∈ names ↔ name ∈ seen) (value : σ) :
    (members fields d path m ms seen value).toOption =
      (form fields).fill (named ts) names value := by
  induction ms generalizing ts seen names value with
  | nil =>
    obtain ⟨⟩ := hms
    rfl
  | cons kv ms ih =>
    obtain ⟨k, v⟩ := kv
    obtain ⟨t, ht, hr⟩ := Option.bind_eq_some_iff.1 hms
    obtain ⟨u, hu, hr⟩ := Option.bind_eq_some_iff.1 hr
    obtain ⟨ts, hts, rfl⟩ := Option.map_eq_some_iff.1 hr
    have hkey := key_of_tree d path ht
    rw [members, named, List.map_cons, ← named]
    cases hread : key d path k with
    | error e =>
      rw [hread] at hkey
      rw [← hkey]
      rfl
    | ok x =>
      obtain ⟨name, segment⟩ := x
      rw [hread] at hkey
      rw [← hkey]
      simp only [Except.toOption, Option.map_some, bind, Except.bind, Form.fill]
      -- The form keeps all names that came before, the decoder only those that it knows.
      cases hfind : fields.find? fun f => f.name == name with
      | none =>
        have hunknown : name ∉ (form fields).known := by simp [mem_known, hfind]
        have hnames : ∀ other ∈ (form fields).known, other ∈ name :: names ↔ other ∈ seen := by
          intro other hother
          have hne : other ≠ name := by
            rintro rfl
            exact hunknown hother
          rw [List.mem_cons, or_iff_right hne, hseen other hother]
        simp only [Node.defect?_of_tree v hu, hunknown, false_and, if_false,
          effect_unknown hunknown, Option.bind_some]
        exact ih hts hnames value
      | some f =>
        have hknown : name ∈ (form fields).known := by simp [mem_known, hfind]
        rw [effect_known hfind]
        by_cases hnew : name ∈ seen
        · simp [hnew, hknown, hseen name hknown]
        · have hread := steady f (List.mem_of_find?_eq_some hfind) d (path ++ [segment]) v u hu
          have hnames : ∀ other ∈ (form fields).known,
              other ∈ name :: names ↔ other ∈ name :: seen := by
            intro other hother
            rw [List.mem_cons, List.mem_cons, hseen other hother]
          simp only [List.contains_eq_mem, hnew, decide_false, Bool.false_eq_true, if_false,
            hseen name hknown, and_false]
          rw [← hread]
          cases f.read d (path ++ [segment]) v with
          | error e => rfl
          | ok set => exact ih hts hnames (set value)

/-- The members of a section; a section without text has none. -/
def section? : Tree → Option (List (Tree × Tree))
  | .mapping ms => some ms
  | .scalar s => if s.isVoid then some [] else none
  | .sequence _ => none

theorem record_of_tree {fields : List (Field σ)} (steady : ∀ f ∈ fields, Steady f.read)
    (expected : String) (default : σ) (d : Document) (path : Path) (hn : n.tree? = some t) :
    (record expected fields default d path n).toOption =
      (section? t).bind fun ms => (form fields).fill (named ms) [] default := by
  rw [record, d.resolve_of_tree hn]
  cases t with
  | scalar s =>
    obtain ⟨m, rfl⟩ := Node.eq_scalar_of_tree hn
    simp only [section?]
    split <;> rfl
  | sequence ts =>
    obtain ⟨m, items, rfl, -⟩ := Node.eq_sequence_of_tree hn
    rfl
  | mapping ts =>
    obtain ⟨m, members, rfl, hms⟩ := Node.eq_mapping_of_tree hn
    exact members_fill steady hms d path m (fun _ _ => Iff.rfl) default

theorem Steady.record {fields : List (Field σ)} (steady : ∀ f ∈ fields, Steady f.read)
    (expected : String) (default : σ) : Steady (Decoder.record expected fields default) :=
  .of_same fun _ => ⟨_, fun d path _ hn => record_of_tree steady expected default d path hn⟩

end Decoder

end SearchRelay.Yaml
