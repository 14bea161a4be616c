import Mathlib.Data.List.TakeWhile
import ZroServices.Foundation.Table
import ZroServices.Tradair.FixParser

/-!
# Tradair — what is built of a message

A model is well formed when its tags and names are unique and none is used at two levels; a message
satisfies it (`Satisfies`) when its header, its body and its trailer fit their structures (`Fits`).
The text of a message is that of its tokens (`build_eq`), and the tokens of the text are these with
every value cut at its first sign `=` (`tokens_text`).
-/

namespace ZroServices.Tradair

open Foundation FixParser

variable {ν : Type}

/-! ### Messages of a model -/

/-- The values of a type that is neither a date nor without a parser. -/
def FieldType.Takes : FieldType → Scalar ν → Prop
  | .CHAR, .text _ | .CURRENCY, .text _ | .STRING, .text _ => True
  | .FLOAT, .number _ | .PRICE, .number _ | .PRICEOFFSET, .number _ | .QTY, .number _ => True
  | .INT, .int i => i ≠ none
  | .BOOLEAN, .bool _ => True
  | _, _ => False

/-- The types of numbers. -/
def FieldType.Numeric (type : FieldType) : Prop :=
  type ∈ [.FLOAT, .INT, .PRICE, .PRICEOFFSET, .QTY]

instance (type : FieldType) : Decidable type.Numeric := inferInstanceAs (Decidable (_ ∈ _))

/-- The text that is built of a value, without its type. -/
def builtText (js : Numbers ν) : Scalar ν → Text
  | .bool b => if b then ['Y'] else ['N']
  | v => v.toText js

/-- The value is one of the field: of its type and its enumeration, and without the field
delimiter. -/
structure FixFieldInfo.Accepts (js : Numbers ν) (info : FixFieldInfo) (v : Scalar ν) : Prop where
  takes : info.type.Takes v
  plain : '|' ∉ builtText js v
  enum : info.value = [] ∨ builtText js v ∈ info.value

mutual

/-- The names within a group, at any depth. -/
def FixGroup.innerNames : FixGroup → List Name
  | .mk _ field group => field.list.map (·.name) ++ groupsNames group

/-- The names of groups and those within them. -/
def groupsNames : List FixGroup → List Name
  | [] => []
  | group :: groups => group.name :: (group.innerNames ++ groupsNames groups)

end

/-- The names of groups are among them. -/
theorem mem_groupsNames {groups : List FixGroup} {name : Name}
    (h : name ∈ groups.map (·.name)) : name ∈ groupsNames groups := by
  induction groups with
  | nil => cases h
  | cons group groups ih =>
      rw [groupsNames]
      rcases List.mem_cons.mp h with rfl | h
      · exact List.mem_cons_self
      · exact List.mem_cons_of_mem _ (List.mem_append_right _ (ih h))

def FixFields.names (fs : FixFields) : List Name := fs.list.map (·.name)

/-- The names of a structure at its own level. -/
def FixStructure.names (S : FixStructure) : List Name := S.fieldNames ++ S.groupNames

/-- The names of a structure at any depth. -/
def FixStructure.allNames (S : FixStructure) : List Name := S.fieldNames ++ groupsNames S.group

/-- A model whose tags and names are unique, with no tag at two levels. -/
structure FixModel.WellFormed (m : FixModel) : Prop where
  numbers : (m.fields.map (·.number)).Nodup
  names : (m.fields.map (·.name)).Nodup
  tags : ∀ info ∈ m.fields, '|' ∉ info.number ∧ '=' ∉ info.number
  messageTypes : (m.messages.map (·.msgtype)).Nodup
  messageNames : (m.messages.map (·.name)).Nodup
  known : ∀ M ∈ m.messages, ∀ name ∈ m.header.names ++ m.trailer.names ++ M.allNames,
    name ∈ m.fields.map (·.name)
  ends : m.header.names.Disjoint m.trailer.names
  body : ∀ M ∈ m.messages, (m.header.names ++ m.trailer.names).Disjoint M.allNames
  fields : ∀ M ∈ m.messages, M.fieldNames.Disjoint M.groupNames
  levels : ∀ M ∈ m.messages, ∀ group ∈ M.group, M.names.Disjoint group.innerNames
  counts : ∀ M ∈ m.messages, ∀ group ∈ M.group, ∀ info ∈ m.byName group.name, info.type.Numeric

/-- The keys of a structure with their values: its required fields and groups are there, and every
entry of a group has the first field of the group. -/
inductive Fits (js : Numbers ν) (m : FixModel) : FixStructure → List (Item ν) → Prop
  | intro {S : FixStructure} {body : List (Item ν)} (nodup : (keys body).Nodup)
      (required : ∀ field ∈ S.field.list, field.required → field.name ∈ keys body)
      (fields : ∀ name v, .field name v ∈ body → name ∈ S.fieldNames ∧
        ∃ info, m.byName name = some info ∧ info.Accepts js v)
      (groups : ∀ name entries, .group name entries ∈ body →
        ∃ group, S.group.find? (fun group => group.name = name) = some group)
      (first : ∀ name entries group, .group name entries ∈ body →
        S.group.find? (fun group => group.name = name) = some group →
          ∀ e ∈ entries, group.structure.field.first.name ∈ keys e)
      (entries : ∀ name entries group, .group name entries ∈ body →
        S.group.find? (fun group => group.name = name) = some group →
          ∀ e ∈ entries, Fits js m group.structure e) :
      Fits js m S body

/-- A message of the type `M`. -/
structure Satisfies (js : Numbers ν) (m : FixModel) (M : FixMessage)
    (message : FixDecodedMessage ν) : Prop where
  mem : M ∈ m.messages
  name : message.name = M.name
  msgType : .field "MsgType" (.text M.msgtype) ∈ message.header
  header : Fits js m ⟨m.header, []⟩ message.header
  body : Fits js m M.toFixStructure message.body
  trailer : Fits js m ⟨m.trailer, []⟩ message.trailer

/-! ### Tags and names -/

/-- An element is found by its key when keys are unique. -/
theorem find?_reverse {α κ : Type} [DecidableEq κ] {f : α → κ} {xs : List α}
    (hnodup : (xs.map f).Nodup) {x : α} (hx : x ∈ xs) :
    xs.reverse.find? (fun y => f y = f x) = some x :=
  find?_eq_some_of_forall (List.mem_reverse.mpr hx) (decide_eq_true rfl) fun _ hy h =>
    List.inj_on_of_nodup_map hnodup (List.mem_reverse.mp hy) hx (of_decide_eq_true h)

section

variable {m : FixModel} {name : Name} {info : FixFieldInfo}

theorem byName_spec (h : m.byName name = some info) : info ∈ m.fields ∧ info.name = name :=
  ⟨List.mem_reverse.mp (List.mem_of_find?_eq_some h), by
    simpa using List.find?_some h⟩

/-- A name of the model has a field. -/
theorem byName_of_mem (hm : m.WellFormed) (h : name ∈ m.fields.map (·.name)) :
    ∃ info, m.byName name = some info := by
  obtain ⟨info, hinfo, rfl⟩ := List.mem_map.mp h
  exact ⟨info, find?_reverse hm.names hinfo⟩

/-- The field of a number is the field of its name. -/
theorem byNumber_eq (hm : m.WellFormed) (h : m.byName name = some info) :
    m.byNumber info.number = some info :=
  find?_reverse hm.numbers (byName_spec h).1

/-- The numbers of a structure are those of its names. -/
theorem mem_numbers (hm : m.WellFormed) (h : m.byName name = some info) {fs : FixFields} :
    info.number ∈ m.numbers fs ↔ name ∈ fs.names := by
  obtain ⟨hmem, hname⟩ := byName_spec h
  rw [FixModel.numbers, FixFields.names, List.mem_filterMap, List.mem_map]
  constructor
  · rintro ⟨field, hfield, e⟩
    obtain ⟨info', hinfo', hnumber⟩ := Option.map_eq_some_iff.mp e
    obtain ⟨hmem', hname'⟩ := byName_spec hinfo'
    obtain rfl := List.inj_on_of_nodup_map hm.numbers hmem' hmem hnumber
    exact ⟨field, hfield, hname'.symm.trans hname⟩
  · rintro ⟨field, hfield, rfl⟩
    exact ⟨field, hfield, by rw [h]; rfl⟩

end

/-! ### Values and their texts -/

/-- The part before the first sign `=`. -/
def cut (s : Text) : Text := s.takeWhile (· ≠ '=')

/-- A value, of which only the part of its text before the first sign `=` is read. -/
def readBack : Scalar ν → Scalar ν
  | .text s => .text (cut s)
  | v => v

theorem cut_eq {s : Text} : cut s = s ↔ '=' ∉ s := by
  rw [cut, List.takeWhile_eq_self_iff]
  constructor
  · exact fun h hmem => of_decide_eq_true (h _ hmem) rfl
  · exact fun h c hc => decide_eq_true fun e => h (e ▸ hc)

/-- The first part of a text. -/
theorem headD_splitOn (s : Text) : (s.splitOn '=').headD [] = cut s := by
  induction s with
  | nil => rfl
  | cons c s ih =>
      rw [List.splitOn_cons_eq_if_modifyHead, cut]
      by_cases hc : c = '='
      · rw [if_pos (beq_iff_eq.mpr hc), List.takeWhile_cons_of_neg (by simp [hc])]
        rfl
      · rw [if_neg (by simpa using hc), List.takeWhile_cons_of_pos (by simp [hc])]
        obtain ⟨x, xs, hx⟩ := List.exists_cons_of_ne_nil (List.splitOn_ne_nil '=' s)
        rw [hx] at ih ⊢
        exact congrArg (c :: ·) ih

/-- A token is read as its tag and its value, cut. -/
theorem token_eq {tag value : Text} (h : '=' ∉ tag) :
    token (tag ++ '=' :: value) = ⟨tag, some (cut value)⟩ := by
  have hsplit : (tag ++ '=' :: value).splitOn '=' = tag :: value.splitOn '=' :=
    List.splitOn_append_cons_self_of_not_mem h value
  obtain ⟨x, xs, hx⟩ := List.exists_cons_of_ne_nil (List.splitOn_ne_nil '=' value)
  have hhead := headD_splitOn value
  rw [hx] at hhead
  rw [token, hsplit, hx, ← hhead]
  rfl

/-- The tokens of a text that was built of tags and values: every value is cut. -/
theorem tokens_text {ts : List (Text × Text)} (htag : ∀ t ∈ ts, '|' ∉ t.1 ∧ '=' ∉ t.1)
    (hvalue : ∀ t ∈ ts, '|' ∉ t.2) :
    tokens (ts.flatMap fun t => tokenText t.1 t.2)
      = ts.map fun t => ⟨t.1, some (cut t.2)⟩ := by
  induction ts with
  | nil => rfl
  | cons t ts ih =>
      obtain ⟨hbar, hequals⟩ := htag t List.mem_cons_self
      have hpiece : '|' ∉ t.1 ++ '=' :: t.2 := by
        simp [hbar, hvalue t List.mem_cons_self]
      have hsplit : ((t :: ts).flatMap fun t => tokenText t.1 t.2).splitOn '|'
          = (t.1 ++ '=' :: t.2) :: (ts.flatMap fun t => tokenText t.1 t.2).splitOn '|' := by
        rw [List.flatMap_cons, tokenText, ← List.append_cons]
        exact List.splitOn_append_cons_self_of_not_mem hpiece _
      rw [tokens, hsplit, List.filter_cons_of_pos (by simp), List.map_cons, token_eq hequals,
        List.map_cons, ← ih (fun t ht => htag t (List.mem_cons_of_mem _ ht))
          fun t ht => hvalue t (List.mem_cons_of_mem _ ht), tokens]

/-! ### Values -/

theorem not_mem_toDigits {c : Char} (hc : c.isDigit = false) (n : ℕ) : c ∉ Nat.toDigits 10 n := by
  intro h
  rw [Nat.isDigit_of_mem_toDigits (by decide) (by decide) h] at hc
  cases hc

theorem not_mem_intText {c : Char} (hc : c.isDigit = false) (hsign : c ≠ '-') (i : ℤ) :
    c ∉ intText i := by
  cases i with
  | ofNat n => exact not_mem_toDigits hc n
  | negSucc n =>
      rw [intText, List.mem_cons, not_or]
      exact ⟨hsign, not_mem_toDigits hc _⟩

theorem parseDigits_toDigits (n : ℕ) : parseDigits (Nat.toDigits 10 n) = some n := by
  have hall : (Nat.toDigits 10 n).takeWhile Char.isDigit = Nat.toDigits 10 n :=
    List.takeWhile_eq_self_iff.mpr fun c hc =>
      Nat.isDigit_of_mem_toDigits (by decide) (by decide) hc
  rw [parseDigits, hall]
  split
  · rename_i h
    exact absurd h Nat.toDigits_ne_nil
  · rw [Nat.ofDigitChars_ten_toDigits]

theorem parseUnsigned_toDigits (n : ℕ) : parseUnsigned (Nat.toDigits 10 n) = some n := by
  rw [parseUnsigned.eq_def]
  split
  · rename_i s h
    exact absurd (h ▸ List.mem_cons_of_mem _ List.mem_cons_self) (not_mem_toDigits rfl n)
  · rename_i s h
    exact absurd (h ▸ List.mem_cons_of_mem _ List.mem_cons_self) (not_mem_toDigits rfl n)
  · exact parseDigits_toDigits n

/-- An integer is read as it was printed. -/
theorem parseInt_intText (i : ℤ) : parseInt (intText i) = some i := by
  cases i with
  | ofNat n =>
      have hdigit : ∀ {c : Char}, c.isDigit = false → ∀ {s : Text}, intText (.ofNat n) ≠ c :: s :=
        fun hc s e => not_mem_toDigits hc n (show _ ∈ intText (.ofNat n) from e ▸ List.mem_cons_self)
      have hspace : (intText (.ofNat n)).dropWhile Char.isWhitespace = intText (.ofNat n) := by
        cases hs : intText (.ofNat n) with
        | nil => rfl
        | cons c s =>
            have hc : c.isDigit :=
              Nat.isDigit_of_mem_toDigits (by decide) (by decide)
                (show c ∈ intText (.ofNat n) from hs ▸ List.mem_cons_self)
            refine List.dropWhile_cons_of_neg fun hw => ?_
            have hne : ∀ c' : Char, c'.isDigit = false → c ≠ c' := fun c' h e => by
              rw [e, h] at hc
              cases hc
            simp only [Char.isWhitespace, Bool.or_eq_true, decide_eq_true_eq] at hw
            rcases hw with ((hw | hw) | hw) | hw
            · exact hne ' ' rfl hw
            · exact hne '\t' rfl hw
            · exact hne '\r' rfl hw
            · exact hne '\n' rfl hw
      rw [parseInt, hspace]
      split
      · rename_i h
        exact absurd h (hdigit rfl)
      · rename_i h
        exact absurd h (hdigit rfl)
      · rw [intText, parseUnsigned_toDigits]
        rfl
  | negSucc n =>
      change (parseUnsigned (Nat.toDigits 10 (n + 1))).map (fun n => -(n : ℤ)) = _
      rw [parseUnsigned_toDigits]
      rfl

/-- A value of a type is built, and what is parsed of its text, cut, is what is read back. -/
theorem parse_built (js : Numbers ν) {type : FieldType} {v : Scalar ν} (h : type.Takes v) :
    fixFieldBuilders js v type = .ok (builtText js v) ∧
      fixFieldParsers js (some (cut (builtText js v))) type = .ok (readBack v) := by
  have hnumber : ∀ x : ν, cut (js.toText x) = js.toText x := fun x => cut_eq.mpr (js.toText_clean x).2
  have hint : ∀ i, cut (intText i) = intText i := fun i =>
    cut_eq.mpr (not_mem_intText rfl (by decide) i)
  cases v with
  | text s => cases type <;> first | exact absurd h id | exact ⟨rfl, rfl⟩
  | int i =>
      cases i with
      | none => cases type <;> first | exact absurd h id | exact absurd rfl h
      | some i =>
          cases type <;> try exact absurd h id
          refine ⟨rfl, ?_⟩
          change Except.ok (Scalar.int (parseInt (cut (intText i)))) = _
          rw [hint, parseInt_intText]
          rfl
  | number x =>
      have hback : js.parseFloat (cut (js.toText x)) = x := by rw [hnumber, js.parseFloat_toText]
      cases type <;> first
        | exact absurd h id
        | exact ⟨rfl, congrArg (fun x => Except.ok (Scalar.number x)) hback⟩
  | bool b => cases type <;> first | exact absurd h id | (cases b <;> exact ⟨rfl, rfl⟩)
  | undefined => cases type <;> exact absurd h id

/-- A value is read back as it was unless it is a text with a sign `=`. -/
theorem readBack_eq {v : Scalar ν} : readBack v = v ↔ ∀ s, v = .text s → '=' ∉ s := by
  cases v with
  | text s =>
      constructor
      · intro h s' e
        obtain rfl := Scalar.text.inj e
        exact cut_eq.mp (Scalar.text.inj h)
      · exact fun h => congrArg Scalar.text (cut_eq.mpr (h s rfl))
  | _ => exact ⟨fun _ _ e => (nomatch e), fun _ => rfl⟩

/-! ### Tokens -/

/-- The tag of a name. -/
def tagOf (m : FixModel) (name : Name) : Text := ((m.byName name).map (·.number)).getD []

/-- The token that an item begins with. -/
def headToken (js : Numbers ν) (m : FixModel) : Item ν → Text × Text
  | .field name v => (tagOf m name, builtText js v)
  | .group name entries => (tagOf m name, Nat.toDigits 10 entries.length)

/-- The tokens of an item whose entries have no groups. -/
def itemTokens (js : Numbers ν) (m : FixModel) : Item ν → List (Text × Text)
  | .field name v => [headToken js m (.field name v)]
  | .group name entries =>
      headToken js m (.group name entries) :: entries.flatMap (·.map (headToken js m))

/-- The text of tokens. -/
def textOf (ts : List (Text × Text)) : Text := ts.flatMap fun t => tokenText t.1 t.2

theorem textOf_append (ts us : List (Text × Text)) : textOf (ts ++ us) = textOf ts ++ textOf us :=
  List.flatMap_append

theorem textOf_cons (t : Text × Text) (ts : List (Text × Text)) :
    textOf (t :: ts) = textOf [t] ++ textOf ts :=
  textOf_append [t] ts

theorem textOf_singleton (t : Text × Text) : textOf [t] = tokenText t.1 t.2 :=
  List.flatMap_singleton _ _

/-- A field of a structure, with a value. -/
structure Plain (js : Numbers ν) (m : FixModel) (S : FixStructure) (name : Name) (v : Scalar ν)
    (info : FixFieldInfo) : Prop where
  mem : name ∈ S.fieldNames
  known : m.byName name = some info
  accepts : info.Accepts js v

/-- An entry without groups. -/
structure Entry (js : Numbers ν) (m : FixModel) (S : FixStructure) (e : List (Item ν)) : Prop where
  nodup : (keys e).Nodup
  plain : ∀ i ∈ e, ∃ name v info, i = .field name v ∧ Plain js m S name v info

/-- An item of a structure whose groups have no groups. -/
inductive Shallow (js : Numbers ν) (m : FixModel) (S : FixStructure) : Item ν → Prop
  | field {name : Name} {v : Scalar ν} {info : FixFieldInfo} (h : Plain js m S name v info) :
      Shallow js m S (.field name v)
  | group {name : Name} {entries : List (List (Item ν))} {info : FixFieldInfo} {group : FixGroup}
      (hname : name ∉ S.fieldNames) (hinfo : m.byName name = some info)
      (hnumeric : info.type.Numeric)
      (hgroup : S.group.find? (fun group => group.name = name) = some group)
      (hflat : group.structure.group = [])
      (hentries : ∀ e ∈ entries, e ≠ [] ∧ Entry js m group.structure e) :
      Shallow js m S (.group name entries)

variable {js : Numbers ν} {m : FixModel} {S : FixStructure}
variable {e : List (Item ν)} {name : Name} {info : FixFieldInfo}

theorem Fits.entry (h : Fits js m S e) (hflat : S.group = []) : Entry js m S e := by
  cases h with
  | intro nodup _ fields groups _ _ =>
      refine ⟨nodup, fun i hi => ?_⟩
      cases i with
      | field name v =>
          obtain ⟨hname, info, hinfo, haccepts⟩ := fields name v hi
          exact ⟨name, v, info, rfl, hname, hinfo, haccepts⟩
      | group name entries =>
          obtain ⟨group, hgroup⟩ := groups name entries hi
          rw [hflat] at hgroup
          cases hgroup

theorem Fits.shallow (hm : m.WellFormed) {M : FixMessage} (hM : M ∈ m.messages)
    {body : List (Item ν)} (h : Fits js m M.toFixStructure body)
    (hflat : ∀ group ∈ M.group, group.structure.group = []) :
    ∀ i ∈ body, Shallow js m M.toFixStructure i := by
  cases h with
  | intro _ _ fields groups first entries =>
      intro i hi
      cases i with
      | field name v =>
          obtain ⟨hname, info, hinfo, haccepts⟩ := fields name v hi
          exact .field ⟨hname, hinfo, haccepts⟩
      | group name es =>
          obtain ⟨group, hgroup⟩ := groups name es hi
          have hmem := List.mem_of_find?_eq_some hgroup
          have hname : group.name = name := by simpa using List.find?_some hgroup
          have hin : name ∈ M.groupNames := hname ▸ List.mem_map_of_mem hmem
          obtain ⟨info, hinfo⟩ : ∃ info, m.byName name = some info := by
            refine byName_of_mem hm (hm.known M hM name (List.mem_append_right _ ?_))
            exact List.mem_append_right _ (mem_groupsNames hin)
          refine .group (fun h => hm.fields M hM h hin) hinfo
            (hm.counts M hM group hmem info (hname ▸ hinfo)) hgroup (hflat group hmem) fun e he => ?_
          refine ⟨?_, (entries name es group hi hgroup e he).entry (hflat group hmem)⟩
          rintro rfl
          exact absurd (first name es group hi hgroup [] he) List.not_mem_nil

theorem buildItem_field {v : Scalar ν} (h : Plain js m S name v info) :
    buildItem js m S (.field name v) = .ok (textOf [headToken js m (.field name v)]) := by
  rw [buildItem, h.known, textOf_singleton, headToken, tagOf, h.known]
  dsimp only
  rw [if_pos h.mem, (parse_built js h.accepts.takes).1]
  rfl

theorem buildMessage_entry
    (h : ∀ i ∈ e, ∃ name v info, i = .field name v ∧ Plain js m S name v info) :
    buildMessage js m S e = .ok (textOf (e.map (headToken js m))) := by
  induction e with
  | nil => rfl
  | cons i e ih =>
      obtain ⟨name, v, info, rfl, hplain⟩ := h i List.mem_cons_self
      rw [buildMessage, buildItem_field hplain, ih fun i hi => h i (List.mem_cons_of_mem _ hi),
        List.map_cons]
      exact congrArg Except.ok (textOf_cons _ _).symm

theorem buildEntries_eq {es : List (List (Item ν))} (h : ∀ e ∈ es, e ≠ [] ∧ Entry js m S e) :
    buildEntries js m S es = .ok (textOf (es.flatMap (·.map (headToken js m)))) := by
  induction es with
  | nil => rfl
  | cons e es ih =>
      rw [buildEntries, buildMessage_entry (h e List.mem_cons_self).2.plain,
        ih fun e he => h e (List.mem_cons_of_mem _ he), List.flatMap_cons, textOf_append]
      rfl

theorem buildItem_eq {i : Item ν} (h : Shallow js m S i) :
    buildItem js m S i = .ok (textOf (itemTokens js m i)) := by
  cases h with
  | field h => exact buildItem_field h
  | group hname hinfo hnumeric hgroup hflat hentries =>
      rw [buildItem, hinfo]
      dsimp only
      rw [if_neg hname, hgroup]
      dsimp only
      rw [buildEntries_eq hentries, itemTokens, textOf_cons, textOf_singleton, headToken, tagOf,
        hinfo]
      rfl

/-- What is built of a body is the text of its tokens. -/
theorem buildMessage_eq {body : List (Item ν)} (h : ∀ i ∈ body, Shallow js m S i) :
    buildMessage js m S body = .ok (textOf (body.flatMap (itemTokens js m))) := by
  induction body with
  | nil => rfl
  | cons i body ih =>
      rw [buildMessage, buildItem_eq (h i List.mem_cons_self),
        ih fun i hi => h i (List.mem_cons_of_mem _ hi), List.flatMap_cons, textOf_append]
      rfl

/-- A token of a tag and a value without delimiters. -/
def Delimited (t : Text × Text) : Prop := ('|' ∉ t.1 ∧ '=' ∉ t.1) ∧ '|' ∉ t.2

theorem tagOf_eq (h : m.byName name = some info) : tagOf m name = info.number := by
  rw [tagOf, h]
  rfl

theorem tag_delimited (hm : m.WellFormed)
    (h : m.byName name = some info) : '|' ∉ tagOf m name ∧ '=' ∉ tagOf m name := by
  rw [tagOf_eq h]
  exact hm.tags info (byName_spec h).1

theorem Plain.delimited (hm : m.WellFormed) {v : Scalar ν}
    (h : Plain js m S name v info) : Delimited (headToken js m (.field name v)) :=
  ⟨tag_delimited hm h.known, h.accepts.plain⟩

theorem Entry.delimited (hm : m.WellFormed) (h : Entry js m S e) :
    ∀ t ∈ e.map (headToken js m), Delimited t := by
  intro t ht
  obtain ⟨i, hi, rfl⟩ := List.mem_map.mp ht
  obtain ⟨name, v, info, rfl, hplain⟩ := h.plain i hi
  exact hplain.delimited hm

theorem Shallow.delimited (hm : m.WellFormed) {i : Item ν} (h : Shallow js m S i) :
    ∀ t ∈ itemTokens js m i, Delimited t := by
  intro t ht
  cases h with
  | field h => exact List.mem_singleton.mp ht ▸ h.delimited hm
  | group _ hinfo _ _ _ hentries =>
      rcases List.mem_cons.mp ht with rfl | ht
      · exact ⟨tag_delimited hm hinfo, not_mem_toDigits rfl _⟩
      · obtain ⟨e, he, ht⟩ := List.mem_flatMap.mp ht
        exact (hentries e he).2.delimited hm t ht

end ZroServices.Tradair
