import FlowDisasm.Command.Location
import FlowDisasm.Proofs.Command.Number
import FlowDisasm.Proofs.Text.Pieces

/-!
# Roots and labels in arguments

An argument for a root is an address, modifiers behind colons, and a name behind an equals sign. The name may hold
separators, the other parts cannot. With modifiers, the last width and the last assumption count, and real mode is
assumed without one; without modifiers the root gets the standard mode. Whatever has other parts is refused.
-/
namespace FlowDisasm.Command

open Text (pieces splitFirst pieces_join exists_pieces splitFirst_eq_some_iff splitFirst_eq_none_iff)

/-! ## Modifiers -/

namespace Modifier

/-- How a modifier is written: letters can be of either case. -/
def spellings : Modifier → List String
  | .width .bits16 => ["16"]
  | .width .bits32 => ["32"]
  | .assumption true => ["pm", "Pm", "pM", "PM"]
  | .assumption false => ["rm", "Rm", "rM", "RM"]

def width? : Modifier → Option X86.Width
  | .width size => some size
  | .assumption _ => none

def assumption? : Modifier → Option Bool
  | .width _ => none
  | .assumption known => some known

theorem eq_toLower_or (c : Char) : c = c.toLower ∨ c = c.toLower.toUpper := by
  have hall : ∀ code : Fin 128, Char.ofNat code.val = (Char.ofNat code.val).toLower ∨
      Char.ofNat code.val = (Char.ofNat code.val).toLower.toUpper := by
    decide
  by_cases hascii : c.toNat < 128
  · simpa using hall ⟨c.toNat, hascii⟩
  · left
    unfold Char.toLower
    rw [dif_neg]
    rintro ⟨-, hcapital⟩
    have hcode : c.toNat ≤ 90 := hcapital
    omega

/-- A text of two characters from its small letters. -/
theorem eq_of_map_toLower {name : String} {first second : Char} (h : name.toList.map Char.toLower = [first, second]) :
    name ∈ [String.ofList [first, second], String.ofList [first.toUpper, second],
      String.ofList [first, second.toUpper], String.ofList [first.toUpper, second.toUpper]] := by
  obtain ⟨c, rest, hname, rfl, hrest⟩ := List.map_eq_cons_iff.mp h
  obtain ⟨d, rest, rfl, rfl, hnil⟩ := List.map_eq_cons_iff.mp hrest
  obtain rfl := List.map_eq_nil_iff.mp hnil
  obtain rfl : name = String.ofList [c, d] := by rw [← hname, String.ofList_toList]
  have hc := eq_toLower_or c
  have hd := eq_toLower_or d
  simp only [List.mem_cons, String.ofList_inj, List.cons.injEq, and_true, List.not_mem_nil, or_false]
  tauto

theorem ofName?_eq_some_iff {name : String} {modifier : Modifier} :
    ofName? name.toList = some modifier ↔ name ∈ modifier.spellings := by
  constructor
  · intro h
    unfold ofName? at h
    split at h
    case h_5 => cases h
    all_goals
      rename_i hlower
      obtain rfl := Option.some.inj h
      simpa [spellings] using eq_of_map_toLower hlower
  · intro h
    rcases modifier with (_ | _) | (_ | _)
    all_goals
      simp only [spellings, List.mem_cons, List.not_mem_nil, or_false] at h
      rcases h with rfl | rfl | rfl | rfl <;> decide

/-- Modifiers with how they are written, one by one. -/
def Spell (names : List String) (modifiers : List Modifier) : Prop :=
  List.Forall₂ (fun name modifier => name ∈ modifier.spellings) names modifiers

/-- The last width and the last assumption count. -/
theorem foldl_apply (modifiers : List Modifier) (mode : Mode) : modifiers.foldl apply mode =
    { width := (modifiers.filterMap width?).getLast?.getD mode.width
      assumedProtected := (modifiers.filterMap assumption?).getLast?.getD mode.assumedProtected } := by
  induction modifiers generalizing mode with
  | nil => rfl
  | cons modifier modifiers ih =>
    rw [List.foldl_cons, ih]
    cases modifier <;> simp [apply, width?, assumption?, List.getLast?_cons]

end Modifier

/-- The mode of a root with modifiers, and the standard mode if it has none. -/
def rootMode (standard : Mode) (modifiers : List Modifier) : Mode :=
  if modifiers = [] then standard
  else
    { width := (modifiers.filterMap Modifier.width?).getLast?.getD standard.width
      assumedProtected := (modifiers.filterMap Modifier.assumption?).getLast?.getD false }

variable {argument address unknown : String} {mode standard : Mode} {names known others : List String}
  {modifiers : List Modifier} {name : Option String} {offset : UInt32} {failure : Failure}

theorem modified_eq_ok_iff {found : Mode} : modified argument mode (names.map String.toList) = .ok found ↔
    ∃ modifiers, Modifier.Spell names modifiers ∧ found = modifiers.foldl Modifier.apply mode := by
  induction names generalizing mode with
  | nil => simp [modified, Modifier.Spell, eq_comm]
  | cons name names ih =>
    simp only [List.map_cons, modified]
    cases hname : Modifier.ofName? name.toList with
    | none =>
      simp only [reduceCtorEq, false_iff]
      rintro ⟨modifiers, hspell, -⟩
      obtain ⟨modifier, _, hmodifier, -, -⟩ := List.forall₂_cons_left_iff.mp hspell
      rw [Modifier.ofName?_eq_some_iff.mpr hmodifier] at hname
      cases hname
    | some modifier =>
      rw [ih]
      constructor
      · rintro ⟨modifiers, hspell, rfl⟩
        exact ⟨modifier :: modifiers, .cons (Modifier.ofName?_eq_some_iff.mp hname) hspell, rfl⟩
      · rintro ⟨modifiers, hspell, rfl⟩
        obtain ⟨other, rest, hother, hrest, rfl⟩ := List.forall₂_cons_left_iff.mp hspell
        rw [← Modifier.ofName?_eq_some_iff, hname] at hother
        obtain rfl := Option.some.inj hother
        exact ⟨rest, hrest, rfl⟩

theorem modified_unknown (hknown : Modifier.Spell known modifiers)
    (hunknown : ∀ modifier, unknown ∉ Modifier.spellings modifier) :
    modified argument mode ((known ++ unknown :: others).map String.toList) =
      .error (.rootModifier (String.ofList (unknown.toList.map Char.toLower)) argument) := by
  induction hknown generalizing mode with
  | nil =>
    cases hname : Modifier.ofName? unknown.toList with
    | none => simp [modified, hname]
    | some modifier => exact absurd (Modifier.ofName?_eq_some_iff.mp hname) (hunknown modifier)
  | cons hspelled _ ih =>
    rw [← Modifier.ofName?_eq_some_iff] at hspelled
    simpa [modified, hspelled] using ih

def readMode (argument : String) (standard : Mode) (names : List String) : Except Failure Mode :=
  if names = [] then .ok standard
  else modified argument { standard with assumedProtected := false } (names.map String.toList)

theorem readMode_eq_ok_iff : readMode argument standard names = .ok mode ↔
    ∃ modifiers, Modifier.Spell names modifiers ∧ mode = rootMode standard modifiers := by
  cases names with
  | nil => simp [readMode, Modifier.Spell, rootMode, eq_comm]
  | cons name names =>
    rw [readMode, if_neg (List.cons_ne_nil _ _), modified_eq_ok_iff]
    refine exists_congr fun modifiers => and_congr_right fun hspell => ?_
    obtain ⟨modifier, modifiers, -, -, rfl⟩ := List.forall₂_cons_left_iff.mp hspell
    rw [Modifier.foldl_apply, rootMode, if_neg (List.cons_ne_nil _ _)]

theorem readMode_unknown (hknown : Modifier.Spell known modifiers)
    (hunknown : ∀ modifier, unknown ∉ Modifier.spellings modifier) :
    readMode argument standard (known ++ unknown :: others) =
      .error (.rootModifier (String.ofList (unknown.toList.map Char.toLower)) argument) := by
  rw [readMode, if_neg (by simp), modified_unknown hknown hunknown]

/-! ## Parts of arguments -/

/-- An argument for a root: its address, its modifiers and its name. -/
def rootText (address : String) (names : List String) (name : Option String) : String :=
  address ++ String.join (names.map (":" ++ ·)) ++ (name.map ("=" ++ ·)).getD ""

/-- A part of an argument that nothing separates. -/
def Unseparated (text : String) : Prop :=
  ':' ∉ text.toList ∧ '=' ∉ text.toList

theorem toList_rootText (address : String) (names : List String) (name : Option String) :
    (rootText address names name).toList = address.toList ++
      (names.map String.toList).flatMap (':' :: ·) ++ (name.map ('=' :: ·.toList)).getD [] := by
  have hjoin : (String.join (names.map (":" ++ ·))).toList = (names.map String.toList).flatMap (':' :: ·) := by
    induction names with
    | nil => rfl
    | cons name names ih => simp [ih]
  cases name <;> simp [rootText, hjoin]

/-- Every argument has parts that can be told apart. -/
theorem exists_rootText (argument : String) : ∃ address names name, argument = rootText address names name ∧
    Unseparated address ∧ ∀ part ∈ names, Unseparated part := by
  have hplace (place : List Char) (hplace : '=' ∉ place) : ∃ address names,
      place = address.toList ++ (List.map String.toList names).flatMap (':' :: ·) ∧
        Unseparated address ∧ ∀ part ∈ names, Unseparated part := by
    obtain ⟨first, others, rfl, hfirst, hothers⟩ := exists_pieces ':' place
    simp only [List.mem_append, List.mem_flatMap, List.mem_cons, Char.reduceEq, false_or, not_or, not_exists,
      not_and] at hplace
    refine ⟨String.ofList first, others.map String.ofList, by simp, ?_, ?_⟩
    · simpa [Unseparated] using ⟨hfirst, hplace.1⟩
    · simpa [Unseparated] using fun part hpart => ⟨hothers part hpart, hplace.2 part hpart⟩
  cases hname : splitFirst '=' argument.toList with
  | none =>
    obtain ⟨address, names, htext, hparts⟩ := hplace _ ((splitFirst_eq_none_iff _ _).mp hname)
    exact ⟨address, names, none, by simpa [← String.toList_inj, toList_rootText] using htext, hparts⟩
  | some cut =>
    obtain ⟨place, name⟩ := cut
    obtain ⟨htext, hequals⟩ := splitFirst_eq_some_iff.mp hname
    obtain ⟨address, names, rfl, hparts⟩ := hplace place hequals
    exact ⟨address, names, some (String.ofList name), by simpa [← String.toList_inj, toList_rootText] using htext,
      hparts⟩

/-- The place of a root is read off its parts. -/
theorem readPlace_join (haddress : ':' ∉ address.toList) (hnames : ∀ part ∈ names, ':' ∉ part.toList) :
    readPlace argument standard (address.toList ++ (names.map String.toList).flatMap (':' :: ·)) = do
      let offset ← readNumber address
      let mode ← readMode argument standard names
      return (offset, mode) := by
  rw [readPlace, pieces_join haddress (by simpa using hnames)]
  cases names with
  | nil => simp [readMode, bind, Except.bind]
  | cons name names => simp [readMode]

/-- A root is read off its parts. -/
theorem readRoot_rootText (haddress : Unseparated address) (hnames : ∀ part ∈ names, Unseparated part) :
    readRoot (rootText address names name) standard =
      if name = some "" then .error (.emptyRootName (rootText address names name))
      else do
        let offset ← readNumber address
        let mode ← readMode (rootText address names name) standard names
        return { offset, mode, name } := by
  have hequals : '=' ∉ address.toList ++ (names.map String.toList).flatMap (':' :: ·) := by
    simpa using ⟨haddress.2, fun part hpart => (hnames part hpart).2⟩
  have hplace (argument : String) := @readPlace_join argument address standard names haddress.1
    fun part hpart => (hnames part hpart).1
  cases name with
  | none =>
    have htext : (rootText address names none).toList =
        address.toList ++ (names.map String.toList).flatMap (':' :: ·) := by
      simp [toList_rootText]
    have hcut : splitFirst '=' (rootText address names none).toList = none := by
      rwa [splitFirst_eq_none_iff, htext]
    rw [readRoot, hcut, htext]
    simp [hplace]
  | some name =>
    have hcut : splitFirst '=' (rootText address names (some name)).toList =
        some (address.toList ++ (names.map String.toList).flatMap (':' :: ·), name.toList) := by
      rw [splitFirst_eq_some_iff]
      exact ⟨by simp [toList_rootText], hequals⟩
    rw [readRoot, hcut]
    cases hname : name.toList with
    | nil => simp [String.toList_eq_nil_iff.mp hname]
    | cons first rest =>
      have hne : name ≠ "" := by
        rintro rfl
        cases hname
      simp [hplace, hne, ← hname]

/-- A text with a separator in it spells no number. -/
theorem unseparated_of_readNumber (h : readNumber address = .ok offset) : Unseparated address := by
  obtain ⟨front, numeral, back, htext, hfront, hback, hnumeral⟩ := readNumber_eq_ok_iff.mp h
  have hnot {separator : Char} (hblank : Text.isBlank separator = false) (hnumeral : separator ∉ numeral) :
      separator ∉ address.toList := by
    simp only [htext, List.mem_append, not_or]
    refine ⟨⟨fun hmem => ?_, hnumeral⟩, fun hmem => ?_⟩
    · simp [hfront _ hmem] at hblank
    · simp [hback _ hmem] at hblank
  exact ⟨hnot rfl (hnumeral.not_mem (by simp) rfl), hnot rfl (hnumeral.not_mem (by simp) rfl)⟩

theorem unseparated_of_spell (h : Modifier.Spell names modifiers) : ∀ part ∈ names, Unseparated part := by
  induction h with
  | nil => simp
  | @cons name modifier names modifiers hname _ ih =>
    refine List.forall_mem_cons.mpr ⟨?_, ih⟩
    rcases modifier with (_ | _) | (_ | _)
    all_goals
      simp only [Modifier.spellings, List.mem_cons, List.not_mem_nil, or_false] at hname
      rcases hname with rfl | rfl | rfl | rfl <;> simp [Unseparated]

/-- An argument asks for a root if and only if it is made of an address, modifiers and a name that is not empty. -/
theorem readRoot_eq_ok_iff {request : RootRequest} : readRoot argument standard = .ok request ↔
    ∃ address names modifiers, argument = rootText address names request.name ∧ request.name ≠ some "" ∧
      readNumber address = .ok request.offset ∧ Modifier.Spell names modifiers ∧
      request.mode = rootMode standard modifiers := by
  constructor
  · intro h
    obtain ⟨address, names, name, rfl, haddress, hnames⟩ := exists_rootText argument
    rw [readRoot_rootText haddress hnames] at h
    by_cases hempty : name = some ""
    · simp [hempty] at h
    · rw [if_neg hempty] at h
      cases hoffset : readNumber address with
      | error failure => simp [hoffset, bind, Except.bind] at h
      | ok offset =>
        cases hmode : readMode (rootText address names name) standard names with
        | error failure => simp [hoffset, hmode, bind, Except.bind] at h
        | ok mode =>
          obtain rfl : { offset, mode, name } = request := by
            simpa [hoffset, hmode, bind, Except.bind, pure, Except.pure] using h
          obtain ⟨modifiers, hspell, rfl⟩ := readMode_eq_ok_iff.mp hmode
          exact ⟨address, names, modifiers, rfl, hempty, hoffset, hspell, rfl⟩
  · rintro ⟨address, names, modifiers, rfl, hempty, hoffset, hspell, hmode⟩
    rw [readRoot_rootText (unseparated_of_readNumber hoffset) (unseparated_of_spell hspell), if_neg hempty, hoffset,
      readMode_eq_ok_iff.mpr ⟨modifiers, hspell, hmode⟩]
    rfl

theorem readRoot_emptyName {place : String} (h : '=' ∉ place.toList) :
    readRoot (place ++ "=") standard = .error (.emptyRootName (place ++ "=")) := by
  have hcut : splitFirst '=' (place ++ "=").toList = some (place.toList, []) :=
    splitFirst_eq_some_iff.mpr ⟨by simp, h⟩
  rw [readRoot, hcut]

/-- The first modifier that is not known is reported, in small letters. -/
theorem readRoot_unknown (hoffset : readNumber address = .ok offset) (hknown : Modifier.Spell known modifiers)
    (hunknown : ∀ modifier, unknown ∉ Modifier.spellings modifier)
    (hparts : ∀ part ∈ unknown :: others, Unseparated part) (hempty : name ≠ some "") :
    readRoot (rootText address (known ++ unknown :: others) name) standard =
      .error (.rootModifier (String.ofList (unknown.toList.map Char.toLower))
        (rootText address (known ++ unknown :: others) name)) := by
  have hnames : ∀ part ∈ known ++ unknown :: others, Unseparated part :=
    List.forall_mem_append.mpr ⟨unseparated_of_spell hknown, hparts⟩
  rw [readRoot_rootText (unseparated_of_readNumber hoffset) hnames, if_neg hempty, hoffset,
    readMode_unknown hknown hunknown]
  rfl

theorem readRoot_badAddress (haddress : Unseparated address) (hnames : ∀ part ∈ names, Unseparated part)
    (hempty : name ≠ some "") (h : readNumber address = .error failure) :
    readRoot (rootText address names name) standard = .error failure := by
  rw [readRoot_rootText haddress hnames, if_neg hempty, h]
  rfl

/-! ## Labels -/

theorem readLabel_eq_ok_iff {text : String} : readLabel argument = .ok (offset, text) ↔
    ∃ address, argument = address ++ "=" ++ text ∧ text ≠ "" ∧ readNumber address = .ok offset := by
  constructor
  · intro h
    unfold readLabel at h
    split at h
    case h_2 => cases h
    case h_1 place first rest hcut =>
      cases hoffset : readNumber (String.ofList place) with
      | error failure => simp [hoffset, bind, Except.bind] at h
      | ok found =>
        obtain ⟨rfl, rfl⟩ : found = offset ∧ String.ofList (first :: rest) = text := by
          simpa [hoffset, bind, Except.bind, pure, Except.pure, -String.ofList_cons] using h
        refine ⟨String.ofList place, ?_, by simp, hoffset⟩
        rw [← String.toList_inj, (splitFirst_eq_some_iff.mp hcut).1]
        simp
  · rintro ⟨address, rfl, hempty, hoffset⟩
    have hcut : splitFirst '=' (address ++ "=" ++ text).toList = some (address.toList, text.toList) :=
      splitFirst_eq_some_iff.mpr ⟨by simp, (unseparated_of_readNumber hoffset).2⟩
    rw [readLabel, hcut]
    cases htext : text.toList with
    | nil => exact absurd (String.toList_eq_nil_iff.mp htext) hempty
    | cons first rest =>
      simp only [String.ofList_toList, hoffset, ← htext]
      rfl

theorem readLabel_unnamed (h : '=' ∉ argument.toList) : readLabel argument = .error (.labelShape argument) := by
  rw [readLabel, (splitFirst_eq_none_iff _ _).mpr h]

theorem readLabel_emptyName {place : String} (h : '=' ∉ place.toList) :
    readLabel (place ++ "=") = .error (.labelShape (place ++ "=")) := by
  have hcut : splitFirst '=' (place ++ "=").toList = some (place.toList, []) :=
    splitFirst_eq_some_iff.mpr ⟨by simp, h⟩
  rw [readLabel, hcut]

/-! ## Arguments read back -/

/-- An offset as arguments give it: in decimal, or in hexadecimal with any number of zeros in front. -/
inductive WrittenOffset (offset : UInt32) : String → Prop
  | decimal : WrittenOffset offset (toString offset.toNat)
  | small : WrittenOffset offset ("0x" ++ Text.hexSmall offset.toNat)
  | capital (digits : Nat) : WrittenOffset offset ("0x" ++ Text.hexPadded digits offset.toNat)

theorem WrittenOffset.readNumber (h : WrittenOffset offset address) : readNumber address = .ok offset := by
  cases h with
  | decimal => exact (readNumber_decimal offset).1
  | small => exact (readNumber_marked (digits_hexSmall _)).1
  | capital digits => exact (readNumber_marked (digits_hexPadded digits _)).1

def modeNames (mode : Mode) : List String :=
  toString mode.width.bits :: if mode.assumedProtected then ["pm"] else []

theorem exists_spell_modeNames (mode : Mode) :
    ∃ modifiers, Modifier.Spell (modeNames mode) modifiers ∧ ∀ standard, rootMode standard modifiers = mode := by
  obtain ⟨width, known⟩ := mode
  have hwidth : toString width.bits ∈ (Modifier.width width).spellings := by cases width <;> decide
  cases known with
  | false => exact ⟨[.width width], .cons hwidth .nil, fun _ => rfl⟩
  | true => exact ⟨[.width width, .assumption true], .cons hwidth (.cons (by decide) .nil), fun _ => rfl⟩

/-- What arguments for roots ask for when roots have a standard mode. -/
structure RootArguments (standard : Mode) : Prop where
  /-- Roots are asked for by an address, any modifiers and perhaps a name, which can be of any characters. -/
  accepted (argument : String) (request : RootRequest) : readRoot argument standard = .ok request ↔
    ∃ address names modifiers, argument = rootText address names request.name ∧ request.name ≠ some "" ∧
      readNumber address = .ok request.offset ∧ Modifier.Spell names modifiers ∧
      request.mode = rootMode standard modifiers
  /-- The argument that is written for an offset, a mode and a name asks for them whatever the standard mode is. -/
  written (offset : UInt32) (address : String) (mode : Mode) (name : Option String) :
    WrittenOffset offset address → name ≠ some "" →
      readRoot (rootText address (modeNames mode) name) standard = .ok { offset, mode, name }
  /-- Without modifiers the standard mode is asked for. -/
  unmodified (offset : UInt32) (address : String) (name : Option String) :
    WrittenOffset offset address → name ≠ some "" →
      readRoot (rootText address [] name) standard = .ok { offset, mode := standard, name }
  /-- A name is not empty. -/
  emptyName (place : String) : '=' ∉ place.toList →
    readRoot (place ++ "=") standard = .error (.emptyRootName (place ++ "="))
  /-- An address is a number. -/
  badAddress (address : String) (names : List String) (name : Option String) (failure : Failure) :
    Unseparated address → (∀ part ∈ names, Unseparated part) → name ≠ some "" →
      readNumber address = .error failure → readRoot (rootText address names name) standard = .error failure
  /-- A modifier is a width or an assumption. -/
  badModifier (address : String) (offset : UInt32) (known : List String) (modifiers : List Modifier)
    (unknown : String) (others : List String) (name : Option String) :
    readNumber address = .ok offset → Modifier.Spell known modifiers →
      (∀ modifier, unknown ∉ Modifier.spellings modifier) → (∀ part ∈ unknown :: others, Unseparated part) →
      name ≠ some "" → readRoot (rootText address (known ++ unknown :: others) name) standard =
        .error (.rootModifier (String.ofList (unknown.toList.map Char.toLower))
          (rootText address (known ++ unknown :: others) name))

/-- What arguments for labels give. -/
structure LabelArguments : Prop where
  /-- A label is an address and a name, which can be of any characters. -/
  accepted (argument : String) (offset : UInt32) (name : String) : readLabel argument = .ok (offset, name) ↔
    ∃ address, argument = address ++ "=" ++ name ∧ name ≠ "" ∧ readNumber address = .ok offset
  /-- The argument that is written for an offset and a name gives them. -/
  written (offset : UInt32) (address name : String) : WrittenOffset offset address → name ≠ "" →
    readLabel (address ++ "=" ++ name) = .ok (offset, name)
  unnamed (argument : String) : '=' ∉ argument.toList → readLabel argument = .error (.labelShape argument)
  emptyName (place : String) : '=' ∉ place.toList →
    readLabel (place ++ "=") = .error (.labelShape (place ++ "="))

/-- Arguments for roots and for labels are read for what is written in them, and all others are refused. -/
theorem roots_and_labels_exact : (∀ standard, RootArguments standard) ∧ LabelArguments := by
  refine ⟨fun standard => ?_, ?_⟩
  · refine ⟨fun _ _ => readRoot_eq_ok_iff, ?_, ?_, fun _ => readRoot_emptyName, fun _ _ _ _ => readRoot_badAddress,
      fun _ _ _ _ _ _ _ => readRoot_unknown⟩
    · intro offset address mode name haddress hempty
      obtain ⟨modifiers, hspell, hmode⟩ := exists_spell_modeNames mode
      exact readRoot_eq_ok_iff.mpr
        ⟨address, _, modifiers, rfl, hempty, haddress.readNumber, hspell, (hmode standard).symm⟩
    · intro offset address name haddress hempty
      exact readRoot_eq_ok_iff.mpr ⟨address, [], [], rfl, hempty, haddress.readNumber, .nil, rfl⟩
  · exact ⟨fun _ _ _ => readLabel_eq_ok_iff,
      fun offset address name haddress hempty =>
        readLabel_eq_ok_iff.mpr ⟨address, rfl, hempty, haddress.readNumber⟩,
      fun _ => readLabel_unnamed, fun _ => readLabel_emptyName⟩

/-- The last width counts, and separators in a name are part of it. -/
theorem boot_root_read : readRoot "0x7C00:32:PM:16=a=b:c" Mode.real16 =
    .ok { offset := 0x7C00, mode := { width := .bits16, assumedProtected := true }, name := some "a=b:c" } := by
  apply ((roots_and_labels_exact.1 Mode.real16).accepted _ _).mpr
  refine ⟨"0x7C00", ["32", "PM", "16"], [.width .bits32, .assumption true, .width .bits16], by decide +kernel,
    by decide, by decide +kernel, ?_, rfl⟩
  exact .cons (by decide) (.cons (by decide) (.cons (by decide) .nil))

end FlowDisasm.Command
