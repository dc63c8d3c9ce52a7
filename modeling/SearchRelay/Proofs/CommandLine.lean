import Mathlib.Data.List.TakeWhile
import SearchRelay.CommandLine

/-!
How arguments fall apart: options, perhaps a mark, and then the words as they stand. The mode is a
matter of the words alone.
-/

namespace SearchRelay.CommandLine

namespace Argument

def optionNames : List String := ["config", "help", "version"]

def optionLetters : List Char := ['h', 'V']

/-- What is no word as long as there was no word in front of it. -/
inductive IsOption : String → Prop
  | mark : IsOption "--"
  | named {name : String} (known : name ∈ optionNames) : IsOption ("--" ++ name)
  | valued {name : String} (known : name ∈ optionNames) (value : String) :
      IsOption ("--" ++ name ++ "=" ++ value)
  | letters {ls : List Char} (any : ls ≠ []) (known : ∀ l ∈ ls, l ∈ optionLetters) :
      IsOption (String.ofList ('-' :: ls))

inductive Shape : String → Prop
  | mark : Shape "--"
  | named {name : String} (nonempty : name ≠ "") (bare : '=' ∉ name.toList) : Shape ("--" ++ name)
  | valued {name : String} (bare : '=' ∉ name.toList) (value : String) :
      Shape ("--" ++ name ++ "=" ++ value)
  | letters {ls : List Char} (single : ls.head? ≠ some '-') : Shape (String.ofList ('-' :: ls))
  | other {s : String} (unmarked : s.toList.head? ≠ some '-') : Shape s

theorem shape (s : String) : Shape s := by
  obtain ⟨cs, rfl⟩ : ∃ cs, s = String.ofList cs := ⟨s.toList, by simp⟩
  by_cases hmarked : cs.head? = some '-'
  case neg => exact .other (by simpa using hmarked)
  obtain ⟨ls, rfl⟩ : ∃ ls, cs = '-' :: ls := List.head?_eq_some_iff.1 hmarked
  by_cases hlong : ls.head? = some '-'
  case neg => exact .letters hlong
  obtain ⟨r, rfl⟩ : ∃ r, ls = '-' :: r := List.head?_eq_some_iff.1 hlong
  have hbare : '=' ∉ r.takeWhile (· != '=') := fun h => by simpa using List.mem_takeWhile_imp h
  have hsplit := List.takeWhile_append_dropWhile (p := (· != '=')) (l := r)
  cases hvalue : r.dropWhile (· != '=') with
  | nil =>
    have hs : String.ofList ('-' :: '-' :: r) = "--" ++ String.ofList r := by
      apply String.toList_inj.1
      simp
    rw [hvalue, List.append_nil] at hsplit
    rw [hsplit] at hbare
    rw [hs]
    cases r with
    | nil => exact .mark
    | cons x r => exact .named (by simp) (by simpa using hbare)
  | cons x value =>
    have hx : x = '=' := by
      have hne : r.dropWhile (· != '=') ≠ [] := by simp [hvalue]
      have hhead := List.head_dropWhile_not (· != '=') hne
      simpa [hvalue] using hhead
    have hs : String.ofList ('-' :: '-' :: r) =
        "--" ++ String.ofList (r.takeWhile (· != '=')) ++ "=" ++ String.ofList value := by
      apply String.toList_inj.1
      rw [hvalue, hx] at hsplit
      simpa using hsplit.symm
    rw [hs]
    exact .valued (by simpa using hbare) _

variable {s name : String}

theorem ofText_mark : ofText "--" = .terminator := by decide +kernel

theorem ofText_long {r : List Char} (hs : s.toList = '-' :: '-' :: r) (hr : r ≠ []) :
    ofText s = ofLong (String.ofList (r.takeWhile (· != '=')))
      (match r.dropWhile (· != '=') with
        | _ :: v => some (String.ofList v)
        | [] => none) := by
  obtain ⟨x, r, rfl⟩ := List.exists_cons_of_ne_nil hr
  rw [ofText, hs]
  rfl

/-- The name of an option ends in front of the value. -/
theorem takeWhile_bare (bare : '=' ∉ name.toList) {r : List Char}
    (hr : ∀ c ∈ r.head?, c = '=') : (name.toList ++ r).takeWhile (· != '=') = name.toList ∧
      (name.toList ++ r).dropWhile (· != '=') = r := by
  have hall : ∀ c ∈ name.toList, c != '=' := fun c hc => by
    simpa using fun h : c = '=' => bare (h ▸ hc)
  have hrest : r.takeWhile (· != '=') = [] ∧ r.dropWhile (· != '=') = r := by
    cases r with
    | nil => exact ⟨rfl, rfl⟩
    | cons x r =>
      obtain rfl : x = '=' := hr x rfl
      exact ⟨rfl, rfl⟩
  rw [List.takeWhile_append_of_pos hall, List.dropWhile_append_of_pos hall, hrest.1, hrest.2,
    List.append_nil]
  exact ⟨rfl, rfl⟩

theorem ofText_named (nonempty : name ≠ "") (bare : '=' ∉ name.toList) :
    ofText ("--" ++ name) = ofLong name none := by
  obtain ⟨htake, hdrop⟩ := takeWhile_bare bare (r := []) nofun
  rw [List.append_nil] at htake hdrop
  rw [ofText_long (r := name.toList) (by simp) (by simpa using nonempty), htake, hdrop,
    String.ofList_toList]

theorem ofText_valued (bare : '=' ∉ name.toList) (value : String) :
    ofText ("--" ++ name ++ "=" ++ value) = ofLong name (some value) := by
  obtain ⟨htake, hdrop⟩ := takeWhile_bare bare (r := '=' :: value.toList) (by simp)
  rw [ofText_long (r := name.toList ++ '=' :: value.toList) (by simp) (by simp), htake, hdrop,
    String.ofList_toList]
  simp only [String.ofList_toList]

theorem ofText_letters {ls : List Char} (single : ls.head? ≠ some '-') :
    ofText (String.ofList ('-' :: ls)) = ofLetters ls := by
  cases ls with
  | nil => decide +kernel
  | cons l ls =>
    have hl : l ≠ '-' := by simpa using single
    simp [ofText, hl]

theorem ofText_other (unmarked : s.toList.head? ≠ some '-') : ofText s = .plain := by
  rw [ofText]
  split <;> simp_all

theorem ofLong_eq_plain_iff {value : Option String} :
    ofLong name value = .plain ↔ name ∉ optionNames := by
  cases value <;> simp only [ofLong, optionNames] <;> split <;> simp_all

theorem ofLetter?_eq_none_iff {l : Char} : ofLetter? l = none ↔ l ∉ optionLetters := by
  unfold ofLetter? optionLetters
  split <;> simp_all

theorem mapM_eq_none_iff {α β : Type} {f : α → Option β} {as : List α} :
    as.mapM f = none ↔ ∃ a ∈ as, f a = none := by
  induction as with
  | nil => simp
  | cons a as ih =>
    simp only [List.mapM_cons, List.mem_cons, exists_eq_or_imp, ← ih]
    cases f a with
    | none => simp
    | some b => cases as.mapM f <;> simp

theorem ofLetters_eq_plain_iff {ls : List Char} (any : ls ≠ []) :
    ofLetters ls = .plain ↔ ∃ l ∈ ls, l ∉ optionLetters := by
  have hmapM : ls.mapM ofLetter? = none ↔ ∃ l ∈ ls, l ∉ optionLetters := by
    simp only [mapM_eq_none_iff, ofLetter?_eq_none_iff]
  rw [← hmapM, ofLetters]
  obtain ⟨l, ls, rfl⟩ := List.exists_cons_of_ne_nil any
  rw [List.mapM_cons]
  cases ofLetter? l with
  | none => simp
  | some q => cases ls.mapM ofLetter? <;> simp

theorem bare_of_known (known : name ∈ optionNames) : name ≠ "" ∧ '=' ∉ name.toList := by
  revert known
  simp only [optionNames, List.mem_cons, List.not_mem_nil, or_false]
  rintro (rfl | rfl | rfl) <;> decide

theorem single_of_known {ls : List Char} (known : ∀ l ∈ ls, l ∈ optionLetters) :
    ls.head? ≠ some '-' := by
  intro hhead
  have hhyphen : '-' ∈ optionLetters := known _ (List.mem_of_mem_head? hhead)
  revert hhyphen
  decide

theorem ofText_eq_plain_iff : ofText s = .plain ↔ ¬ IsOption s := by
  constructor
  · rintro h (_ | known | ⟨known, value⟩ | ⟨any, known⟩)
    · rw [ofText_mark] at h
      cases h
    · obtain ⟨nonempty, bare⟩ := bare_of_known known
      rw [ofText_named nonempty bare, ofLong_eq_plain_iff] at h
      exact h known
    · rw [ofText_valued (bare_of_known known).2, ofLong_eq_plain_iff] at h
      exact h known
    · rw [ofText_letters (single_of_known known), ofLetters_eq_plain_iff any] at h
      obtain ⟨l, hl, hunknown⟩ := h
      exact hunknown (known l hl)
  · intro h
    cases shape s with
    | mark => exact absurd .mark h
    | named nonempty bare =>
      rw [ofText_named nonempty bare, ofLong_eq_plain_iff]
      exact fun known => h (.named known)
    | valued bare value =>
      rw [ofText_valued bare, ofLong_eq_plain_iff]
      exact fun known => h (.valued known value)
    | @letters ls single =>
      rw [ofText_letters single]
      by_cases any : ls = []
      · subst any
        rfl
      · rw [ofLetters_eq_plain_iff any]
        by_contra hknown
        exact h (.letters any (by simpa using hknown))
    | other unmarked => exact ofText_other unmarked

theorem ofText_config : ofText "--config" = .config none := by decide +kernel

theorem ofText_configValue (path : Path) : ofText ("--config=" ++ path) = .config (some path) := by
  have bare : '=' ∉ "config".toList := by decide
  exact ofText_valued bare path

inductive Means (s : String) : Argument → Prop
  | mark (h : s = "--") : Means s .terminator
  | config (h : s = "--config") : Means s (.config none)
  | configValue {path : Path} (h : s = "--config=" ++ path) : Means s (.config (some path))
  | query {q : Query} (option : IsOption s) : Means s (.query q)
  | queryWithValue {q : Query} {value : String} (option : IsOption s) :
      Means s (.queryWithValue q value)
  | plain (word : ¬ IsOption s) : Means s .plain

theorem IsOption.means (option : IsOption s) : Means s (ofText s) := by
  have again := option
  cases option with
  | mark => exact ofText_mark ▸ .mark rfl
  | named known =>
    simp only [optionNames, List.mem_cons, List.not_mem_nil, or_false] at known
    rcases known with rfl | rfl | rfl
    · exact ofText_config ▸ .config rfl
    all_goals exact .query again
  | valued known value =>
    rw [ofText_valued (bare_of_known known).2]
    simp only [optionNames, List.mem_cons, List.not_mem_nil, or_false] at known
    rcases known with rfl | rfl | rfl
    · exact .configValue rfl
    all_goals exact .queryWithValue again
  | @letters ls any known =>
    have hknown : ofLetters ls ≠ .plain := by
      rw [ne_eq, ofLetters_eq_plain_iff any]
      simpa using known
    rw [ofText_letters (single_of_known known)]
    unfold ofLetters at hknown ⊢
    split at hknown
    · exact .query again
    · exact absurd rfl hknown

theorem means (s : String) : Means s (ofText s) := by
  by_cases option : IsOption s
  · exact option.means
  · rw [ofText_eq_plain_iff.2 option]
    exact .plain option

theorem ofText_eq_mark_iff : ofText s = .terminator ↔ s = "--" := by
  constructor
  · intro h
    have hmeans := means s
    rw [h] at hmeans
    cases hmeans with
    | mark hs => exact hs
  · rintro rfl
    exact ofText_mark

theorem eq_of_ofText_config (h : ofText s = .config none) : s = "--config" := by
  have hmeans := means s
  rw [h] at hmeans
  cases hmeans with
  | config hs => exact hs

theorem eq_of_ofText_configValue {path : Path} (h : ofText s = .config (some path)) :
    s = "--config=" ++ path := by
  have hmeans := means s
  rw [h] at hmeans
  cases hmeans with
  | configValue hs => exact hs

end Argument

open Argument

/-- The options in front of the words, and the path that they name. -/
inductive Options : List String → Option Path → Prop
  | absent : Options [] none
  | joined {path : Path} (nonempty : path ≠ "") : Options ["--config=" ++ path] (some path)
  | apart {path : Path} (nonempty : path ≠ "") (value : ¬ IsOption path) :
      Options ["--config", path] (some path)

/-- What stands behind the options, and the words in it. -/
inductive Leaves : List String → List String → Prop
  | marked (words : List String) : Leaves ("--" :: words) words
  | plain {words : List String} (first : ∀ w ∈ words.head?, ¬ IsOption w) : Leaves words words

/-- How arguments fall apart. -/
def Splits (arguments : List String) (c : CommandLine) : Prop :=
  ∃ options rest, arguments = options ++ rest ∧ Options options c.config ∧ Leaves rest c.words

variable {config : Option Path} {path a : String} {r words : List String} {c : CommandLine}

theorem leaves_nil_iff : Leaves [] words ↔ words = [] := by
  constructor
  · rintro ⟨⟩
    rfl
  · rintro rfl
    exact .plain nofun

theorem leaves_cons_iff : Leaves (a :: r) words ↔
    ofText a = .terminator ∧ words = r ∨ ofText a = .plain ∧ words = a :: r := by
  rw [ofText_eq_mark_iff, ofText_eq_plain_iff]
  constructor
  · rintro (_ | first)
    · exact .inl ⟨rfl, rfl⟩
    · exact .inr ⟨first a rfl, rfl⟩
  · rintro (⟨rfl, rfl⟩ | ⟨word, rfl⟩)
    · exact .marked words
    · exact .plain (by simpa using word)

theorem objection?_first (nonempty : path ≠ "") : objection? none path = none := by
  simp [objection?, nonempty]

theorem parseFrom_joined (nonempty : path ≠ "") (r : List String) :
    parseFrom none (("--config=" ++ path) :: r) = parseFrom (some path) r := by
  rw [parseFrom.eq_def]
  simp only [ofText_configValue]
  simp only [objection?_first nonempty]

theorem parseFrom_apart (nonempty : path ≠ "") (value : ¬ IsOption path) (r : List String) :
    parseFrom none ("--config" :: path :: r) = parseFrom (some path) r := by
  rw [parseFrom.eq_def]
  simp only [ofText_config]
  simp only [ofText_eq_plain_iff.2 value, objection?_first nonempty, Option.map_none]

theorem parseFrom_ok_iff (unnamed : ∀ a ∈ r.head?, ∀ p, ofText a ≠ .config p) :
    parseFrom config r = .ok c ↔ c.config = config ∧ Leaves r c.words := by
  obtain ⟨config', words⟩ := c
  rw [parseFrom.eq_def]
  cases r with
  | nil => simp [leaves_nil_iff, eq_comm]
  | cons a r =>
    rw [leaves_cons_iff]
    cases h : ofText a with
    | config p => exact absurd h (unnamed a rfl p)
    | terminator | plain | query q | queryWithValue q v => simp [h, eq_comm]

theorem parseFrom_some_ok_iff :
    parseFrom (some path) r = .ok c ↔ c.config = some path ∧ Leaves r c.words := by
  by_cases unnamed : ∀ a ∈ r.head?, ∀ p, ofText a ≠ .config p
  · exact parseFrom_ok_iff unnamed
  cases r with
  | nil => exact absurd nofun unnamed
  | cons a r =>
    obtain ⟨p, h⟩ : ∃ p, ofText a = .config p := by simpa using unnamed
    have hrefused : ∀ c, parseFrom (some path) (a :: r) ≠ .ok c := by
      intro c
      rw [parseFrom.eq_def]
      simp only [h]
      cases p with
      | some p => simp [objection?]
      | none =>
        cases r with
        | nil => simp
        | cons b s => cases hb : ofText b <;> simp [hb, objection?]
    simp [leaves_cons_iff, h, hrefused]

theorem parseFrom_of_splits {arguments : List String} (h : Splits arguments c) :
    parseFrom none arguments = .ok c := by
  obtain ⟨options, rest, rfl, hoptions, hrest⟩ := h
  obtain ⟨config, words⟩ := c
  cases hoptions with
  | absent =>
    refine (parseFrom_ok_iff ?_).2 ⟨rfl, hrest⟩
    intro a ha p hp
    cases hrest with
    | marked =>
      obtain rfl : "--" = a := Option.some.inj ha
      rw [ofText_mark] at hp
      cases hp
    | plain first =>
      rw [ofText_eq_plain_iff.2 (first a ha)] at hp
      cases hp
  | joined nonempty =>
    exact (parseFrom_joined nonempty rest).trans (parseFrom_some_ok_iff.2 ⟨rfl, hrest⟩)
  | apart nonempty value =>
    exact (parseFrom_apart nonempty value rest).trans (parseFrom_some_ok_iff.2 ⟨rfl, hrest⟩)

/-- A path in an argument of its own is no option, and no path is empty. -/
theorem value_of_parseFrom (h : parseFrom none ("--config" :: r) = .ok c) :
    ∃ path s, r = path :: s ∧ path ≠ "" ∧ ¬ IsOption path := by
  rw [parseFrom.eq_def] at h
  simp only [ofText_config] at h
  cases r with
  | nil => cases h
  | cons path s =>
    cases hpath : ofText path with
    | plain =>
      refine ⟨path, s, rfl, ?_, ofText_eq_plain_iff.1 hpath⟩
      rintro rfl
      simp [hpath, objection?] at h
    | terminator | config p | query q | queryWithValue q v => simp [hpath] at h

theorem nonempty_of_parseFrom (h : parseFrom none (("--config=" ++ path) :: r) = .ok c) :
    path ≠ "" := by
  rintro rfl
  rw [parseFrom.eq_def] at h
  simp only [ofText_configValue] at h
  cases h

theorem parse_ok_iff {arguments : List String} : parse arguments = .ok c ↔ Splits arguments c := by
  refine ⟨fun h => ?_, parseFrom_of_splits⟩
  rw [parse] at h
  by_cases unnamed : ∀ a ∈ arguments.head?, ∀ p, ofText a ≠ .config p
  · obtain ⟨hconfig, hleaves⟩ := (parseFrom_ok_iff unnamed).1 h
    exact ⟨[], arguments, rfl, hconfig ▸ .absent, hleaves⟩
  cases arguments with
  | nil => exact absurd nofun unnamed
  | cons a r =>
    obtain ⟨p, ha⟩ : ∃ p, ofText a = .config p := by simpa using unnamed
    cases p with
    | some path =>
      obtain rfl := eq_of_ofText_configValue ha
      have nonempty := nonempty_of_parseFrom h
      rw [parseFrom_joined nonempty, parseFrom_some_ok_iff] at h
      exact ⟨["--config=" ++ path], r, rfl, h.1 ▸ .joined nonempty, h.2⟩
    | none =>
      obtain rfl := eq_of_ofText_config ha
      obtain ⟨path, s, rfl, nonempty, value⟩ := value_of_parseFrom h
      rw [parseFrom_apart nonempty value, parseFrom_some_ok_iff] at h
      exact ⟨["--config", path], s, rfl, h.1 ▸ .apart nonempty value, h.2⟩

theorem Options.isSome_iff {options : List String} (h : Options options config) :
    config.isSome ↔ ∃ o ∈ options, o = "--config" ∨ ∃ path, o = "--config=" ++ path := by
  cases h with
  | absent => simp
  | joined => simp
  | apart => simp

/-- Two words set the mode, wherever they stand; the first counts before the second. -/
theorem mode_eq (c : CommandLine) : c.mode =
    if "mockcedar" ∈ c.words then .mock
    else if "noredcedar" ∈ c.words then .disabled
    else .real := by
  simp [mode, ControllerMode.ofWords, ControllerMode.mockWord, ControllerMode.disableWord]

/-- What arguments come to, by themselves, behind a mark and behind a path. -/
structure Splitting (arguments : List String) : Prop where
  accepted (c : CommandLine) : parse arguments = .ok c ↔ Splits arguments c
  named {options : List String} {config : Option Path} : Options options config →
    (config.isSome ↔ ∃ o ∈ options, o = "--config" ∨ ∃ path, o = "--config=" ++ path)
  behindMark : parse ("--" :: arguments) = .ok ⟨none, arguments⟩
  behindPath (path : Path) : path ≠ "" → path.toList.head? ≠ some '-' →
    (∀ w ∈ arguments.head?, w.toList.head? ≠ some '-') →
    parse ("--config" :: path :: arguments) = .ok ⟨some path, arguments⟩
  mock (c : CommandLine) : c.mode = .mock ↔ "mockcedar" ∈ c.words
  disabled (c : CommandLine) :
    c.mode = .disabled ↔ "mockcedar" ∉ c.words ∧ "noredcedar" ∈ c.words
  real (c : CommandLine) : c.mode = .real ↔ "mockcedar" ∉ c.words ∧ "noredcedar" ∉ c.words

theorem parse_splits (arguments : List String) : Splitting arguments := by
  have word {s : String} (unmarked : s.toList.head? ≠ some '-') : ¬ IsOption s :=
    ofText_eq_plain_iff.1 (ofText_other unmarked)
  constructor
  case accepted => exact fun c => parse_ok_iff
  case named => exact Options.isSome_iff
  case behindMark => exact parse_ok_iff.2 ⟨[], _, rfl, .absent, .marked arguments⟩
  case behindPath =>
    intro path nonempty unmarked first
    have hpath : Options ["--config", path] (some path) := .apart nonempty (word unmarked)
    exact parse_ok_iff.2 ⟨_, arguments, rfl, hpath, .plain fun w hw => word (first w hw)⟩
  case mock | disabled | real =>
    intro c
    rw [mode_eq]
    split
    · simp_all
    · split <;> simp_all

/-- Behind the mark, options are words. -/
example : parse ["--config=a.yaml", "--", "--config", "mockcedar", "--", "--help"] =
    .ok ⟨some "a.yaml", ["--config", "mockcedar", "--", "--help"]⟩ := by decide +kernel

end SearchRelay.CommandLine
