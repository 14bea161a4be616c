import ZroServices.Tradair.RoundTrip

/-!
# Tradair — the check of required fields

A message is incomplete when a required field of its model is missing: at the top level, or in an
entry of a group of the message, at any depth.  The parser looks for what is missing with a
recursion over the groups that gives the array of the entries where an entry should stand and drops
what the recursion finds.

* `parse_eq`: what the parser does with a message that it has read: it ends with a `TypeError`
  unless every group of the message has a value and no groups of its own, and reports what is
  missing at the top level.
* `exact_iff`: the check is exact for the messages whose groups are so and that miss nothing in an
  entry alone.
-/

namespace ZroServices.Tradair

open Foundation FixParser

section

variable {ν : Type} {js : Numbers ν} {m : FixModel} {M : FixMessage} {S : FixStructure}
  {message : FixDecodedMessage ν} {body : List (Item ν)} {text : Text}

/-- A required field is not there. -/
def Lacks (fs : FixFields) (body : List (Item ν)) : Prop :=
  ∃ field ∈ fs.list, field.required ∧ field.name ∉ keys body

/-- A required field is missing at its level: among the keys of a structure, or among those of an
entry of one of its groups. -/
inductive Missing : FixStructure → List (Item ν) → Prop
  | field {S : FixStructure} {body : List (Item ν)} (lacks : Lacks S.field body) : Missing S body
  | entry {S : FixStructure} {body : List (Item ν)} {group : FixGroup}
      {entries : List (List (Item ν))} {e : List (Item ν)} (group_mem : group ∈ S.group)
      (item_mem : .group group.name entries ∈ body) (entry_mem : e ∈ entries)
      (missing : Missing group.structure e) : Missing S body

/-- A required field is missing somewhere in a message of the type `M`. -/
def Incomplete (m : FixModel) (M : FixMessage) (message : FixDecodedMessage ν) : Prop :=
  Missing ⟨m.header, []⟩ message.header ∨ Missing M.toFixStructure message.body ∨
    Missing ⟨m.trailer, []⟩ message.trailer

/-- A required field is missing at the top level. -/
def LacksAtTop (m : FixModel) (M : FixMessage) (message : FixDecodedMessage ν) : Prop :=
  Lacks m.header message.header ∨ Lacks M.field message.body ∨ Lacks m.trailer message.trailer

/-- A required field is missing in an entry of a group. -/
def LacksInEntry (M : FixMessage) (message : FixDecodedMessage ν) : Prop :=
  ∃ group ∈ M.group, ∃ entries, .group group.name entries ∈ message.body ∧
    ∃ e ∈ entries, Missing group.structure e

/-- Every group of the message has a value, and no groups of its own. -/
def GroupsPresent (M : FixMessage) (message : FixDecodedMessage ν) : Prop :=
  ∀ group ∈ M.group, (valueOf message.body group.name).isSome ∧ group.structure.group = []

/-- The parser rejects a text for what is missing in it. -/
def Rejects (js : Numbers ν) (m : FixModel) (text : Text) : Prop :=
  ∃ names, parse js m text = .error (.missingRequiredFields names)

/-- The check of required fields rejects a message when it should, and does not crash. -/
structure Exact (js : Numbers ν) (m : FixModel) (M : FixMessage) (text : Text)
    (message : FixDecodedMessage ν) : Prop where
  rejects_iff : Rejects js m text ↔ Incomplete m M message
  noCrash : parse js m text ≠ .error .typeError

/-! ### What is missing -/

theorem missing_iff : Missing S body ↔ Lacks S.field body ∨
    ∃ group ∈ S.group, ∃ entries, .group group.name entries ∈ body ∧
      ∃ e ∈ entries, Missing group.structure e := by
  constructor
  · intro h
    cases h with
    | field lacks => exact Or.inl lacks
    | entry group_mem item_mem entry_mem missing =>
        exact Or.inr ⟨_, group_mem, _, item_mem, _, entry_mem, missing⟩
  · rintro (h | ⟨group, hgroup, entries, hitem, e, he, h⟩)
    · exact .field h
    · exact .entry hgroup hitem he h

/-- A header and a trailer have no groups. -/
theorem missing_flat {fs : FixFields} : Missing ⟨fs, []⟩ body ↔ Lacks fs body := by
  rw [missing_iff]
  refine or_iff_left ?_
  rintro ⟨group, hgroup, -⟩
  exact absurd hgroup List.not_mem_nil

theorem incomplete_iff :
    Incomplete m M message ↔ LacksAtTop m M message ∨ LacksInEntry M message := by
  rw [Incomplete, missing_flat, missing_flat, missing_iff, LacksAtTop, LacksInEntry]
  constructor
  · rintro (h | (h | h) | h)
    · exact Or.inl (Or.inl h)
    · exact Or.inl (Or.inr (Or.inl h))
    · exact Or.inr h
    · exact Or.inl (Or.inr (Or.inr h))
  · rintro ((h | h | h) | h)
    · exact Or.inl h
    · exact Or.inr (Or.inl (Or.inl h))
    · exact Or.inr (Or.inr h)
    · exact Or.inr (Or.inl (Or.inr h))

theorem missingRequired_ne_nil {fs : FixFields} : missingRequired fs body ≠ [] ↔ Lacks fs body := by
  rw [missingRequired, Ne, List.filter_eq_nil_iff]
  constructor
  · intro h
    by_contra hlacks
    refine h fun name hname hmissing => hlacks ?_
    obtain ⟨field, hfield, rfl⟩ := List.mem_map.mp hname
    obtain ⟨hmem, hrequired⟩ := List.mem_filter.mp hfield
    exact ⟨field, hmem, hrequired, of_decide_eq_true hmissing⟩
  · rintro ⟨field, hmem, hrequired, hmissing⟩ h
    exact h field.name (List.mem_map_of_mem (List.mem_filter.mpr ⟨hmem, hrequired⟩))
      (decide_eq_true hmissing)

/-- What is missing at the top level, as the parser lists it. -/
def missingAtTop (m : FixModel) (M : FixMessage) (message : FixDecodedMessage ν) : List Name :=
  missingRequired m.header message.header ++ missingRequired M.field message.body ++
    missingRequired m.trailer message.trailer

theorem missingAtTop_ne_nil : missingAtTop m M message ≠ [] ↔ LacksAtTop m M message := by
  rw [missingAtTop, LacksAtTop, ← missingRequired_ne_nil, ← missingRequired_ne_nil,
    ← missingRequired_ne_nil]
  simp only [ne_eq, List.append_eq_nil_iff, not_and_or, or_assoc]

/-! ### The check -/

theorem checkRequiredGroup_total (body : List (Item ν)) (group : FixGroup) :
    checkRequiredGroup body group = .ok () ∨ checkRequiredGroup body group = .error .typeError := by
  rw [checkRequiredGroup]
  split
  · exact Or.inr rfl
  · exact Or.inl rfl

/-- Actions that end well or with one error end so together. -/
theorem forM_total {α ε : Type} {f : α → Except ε Unit} {err : ε}
    (hf : ∀ x, f x = .ok () ∨ f x = .error err) (xs : List α) :
    xs.forM f = .ok () ∨ xs.forM f = .error err := by
  induction xs with
  | nil => exact Or.inl rfl
  | cons x xs ih =>
      have hcons : (x :: xs).forM f = (f x >>= fun _ => xs.forM f) := rfl
      rw [hcons]
      rcases hf x with hx | hx
      · rw [hx]
        exact ih
      · rw [hx]
        exact Or.inr rfl

theorem forM_groups : M.group.forM (checkRequiredGroup message.body) = .ok () ↔
    GroupsPresent M message := by
  rw [forM_eq_ok]
  exact forall₂_congr fun group _ => checkRequiredGroup_iff

theorem checkRequiredFields_present (hM : m.messageOfName message.name = some M)
    (h : GroupsPresent M message) :
    checkRequiredFields m message = .ok (missingAtTop m M message) := by
  rw [checkRequiredFields, hM]
  exact bind_eq_ok.mpr ⟨missingRequired M.field message.body,
    bind_eq_ok.mpr ⟨(), forM_groups.mpr h, rfl⟩, rfl⟩

theorem checkRequiredFields_absent (hM : m.messageOfName message.name = some M)
    (h : ¬GroupsPresent M message) : checkRequiredFields m message = .error .typeError := by
  have hrun := (forM_total (checkRequiredGroup_total message.body) M.group).resolve_left
    (mt forM_groups.mp h)
  have hcheck : checkRequired M.toFixStructure message.body = .error .typeError := by
    rw [checkRequired, hrun]
    rfl
  rw [checkRequiredFields, hM]
  exact congrArg (· >>= _) hcheck

/-- **What the parser does with a message that it has read.** -/
theorem parse_eq (h : getFixMessage js m (tokens text) = .ok message)
    (hM : m.messageOfName message.name = some M) :
    (¬GroupsPresent M message → parse js m text = .error .typeError) ∧
    (GroupsPresent M message → LacksAtTop m M message →
      parse js m text = .error (.missingRequiredFields (missingAtTop m M message))) ∧
    (GroupsPresent M message → ¬LacksAtTop m M message → parse js m text = .ok message) := by
  have hparse : parse js m text = (checkRequiredFields m message >>= fun missing =>
      if missing ≠ [] then throw (.missingRequiredFields missing) else return message) := by
    rw [parse, h]
    rfl
  rw [hparse, ← missingAtTop_ne_nil]
  refine ⟨fun hgroups => ?_, fun hgroups hlacks => ?_, fun hgroups hlacks => ?_⟩
  · rw [checkRequiredFields_absent hM hgroups]
    rfl
  · rw [checkRequiredFields_present hM hgroups]
    exact if_pos hlacks
  · rw [checkRequiredFields_present hM hgroups]
    exact if_neg hlacks

/-- A message that was read has a type. -/
theorem messageOfName_isSome {ts : List FixToken} (h : getFixMessage js m ts = .ok message) :
    ∃ M, m.messageOfName message.name = some M := by
  rw [getFixMessage] at h
  obtain ⟨header, -, h⟩ := bind_eq_ok.mp h
  obtain ⟨trailer, -, h⟩ := bind_eq_ok.mp h
  cases hM : m.messageOfType (msgType js header) with
  | none =>
      rw [hM] at h
      cases h
  | some M =>
      rw [hM] at h
      obtain ⟨⟨body, rest⟩, -, h⟩ := bind_eq_ok.mp h
      obtain rfl := Except.ok.inj h
      refine Option.isSome_iff_exists.mp (List.find?_isSome.mpr ⟨M, ?_, decide_eq_true rfl⟩)
      exact List.mem_of_find?_eq_some hM

/-- **The check is exact when every group of the message is there and has no groups, and nothing is
missing in an entry alone.** -/
theorem exact_iff (h : getFixMessage js m (tokens text) = .ok message) :
    ∃ M, m.messageOfName message.name = some M ∧ (Exact js m M text message ↔
      GroupsPresent M message ∧ (LacksInEntry M message → LacksAtTop m M message)) := by
  obtain ⟨M, hM⟩ := messageOfName_isSome h
  obtain ⟨hcrash, hreject, haccept⟩ := parse_eq h hM
  refine ⟨M, hM, ?_⟩
  constructor
  · intro hexact
    have hgroups : GroupsPresent M message := by
      by_contra hgroups
      exact hexact.noCrash (hcrash hgroups)
    refine ⟨hgroups, fun hentry => ?_⟩
    by_contra htop
    obtain ⟨names, hnames⟩ := hexact.rejects_iff.mpr (incomplete_iff.mpr (Or.inr hentry))
    rw [haccept hgroups htop] at hnames
    cases hnames
  · rintro ⟨hgroups, himp⟩
    have hincomplete : Incomplete m M message ↔ LacksAtTop m M message :=
      incomplete_iff.trans (or_iff_left_of_imp himp)
    by_cases htop : LacksAtTop m M message
    · have hrun := hreject hgroups htop
      refine ⟨iff_of_true ⟨_, hrun⟩ (hincomplete.mpr htop), ?_⟩
      rw [hrun]
      rintro ⟨⟩
    · have hrun := haccept hgroups htop
      refine ⟨iff_of_false ?_ (mt hincomplete.mp htop), ?_⟩
      · rintro ⟨names, e⟩
        rw [hrun] at e
        cases e
      · rw [hrun]
        rintro ⟨⟩

end

namespace Sample

/-- News with the text `a` and no prices. -/
def bareText : Text := "35=B|58=a|10=0|".toList

def bare : FixDecodedMessage ℕ := { sample ['a'] with body := [.field "Text" (.text ['a'])] }

/-- News with an entry that has a size and no price. -/
def pricelessText : Text := "35=B|58=a|268=1|271=10|10=0|".toList

def priceless : FixDecodedMessage ℕ :=
  { sample ['a'] with
    body := [.field "Text" (.text ['a']),
      .group "NoMDEntries" [[.field "MDEntrySize" (.number 10)]]] }

theorem bare_read : getFixMessage naturals model (tokens bareText) = .ok bare := by rfl

theorem priceless_read :
    getFixMessage naturals model (tokens pricelessText) = .ok priceless := by rfl

/-- Nothing that is required is missing without prices. -/
theorem bare_complete : ¬Incomplete model news bare := by
  rw [incomplete_iff]
  rintro ((h | h | h) | ⟨group, hgroup, entries, hitem, -⟩)
  · exact missingRequired_ne_nil.mpr h (by decide)
  · exact missingRequired_ne_nil.mpr h (by decide)
  · exact missingRequired_ne_nil.mpr h (by decide)
  · cases List.mem_singleton.mp hitem

/-- The price of an entry is required. -/
theorem priceless_incomplete : Incomplete model news priceless := by
  have hentry : Missing prices.structure ([.field "MDEntrySize" (.number 10)] : List (Item ℕ)) :=
    .field (missingRequired_ne_nil.mp (by decide))
  exact incomplete_iff.mpr (Or.inr ⟨prices, List.mem_singleton_self _, _,
    List.mem_cons_of_mem _ (List.mem_singleton_self _), _, List.mem_singleton_self _, hentry⟩)

end Sample

open Sample in
theorem exact_sample : ∃ M, model.messageOfName "News" = some M ∧
    (Exact naturals model M pricelessText priceless ↔
      GroupsPresent M priceless ∧ (LacksInEntry M priceless → LacksAtTop model M priceless)) :=
  exact_iff priceless_read

open Sample in
/-- A message without its optional group crashes the check, and an entry without its price is
accepted. -/
theorem not_exact :
    (getFixMessage naturals model (tokens bareText) = .ok bare ∧ ¬Incomplete model news bare ∧
      parse naturals model bareText = .error .typeError) ∧
    (getFixMessage naturals model (tokens pricelessText) = .ok priceless ∧
      Incomplete model news priceless ∧ parse naturals model pricelessText = .ok priceless) ∧
    ¬Exact naturals model news bareText bare ∧
    ¬Exact naturals model news pricelessText priceless := by
  have hcrash : parse naturals model bareText = .error .typeError := by rfl
  have haccept : parse naturals model pricelessText = .ok priceless := by rfl
  refine ⟨⟨bare_read, bare_complete, hcrash⟩, ⟨priceless_read, priceless_incomplete, haccept⟩,
    fun h => h.noCrash hcrash, fun h => ?_⟩
  obtain ⟨names, e⟩ := h.rejects_iff.mpr priceless_incomplete
  rw [haccept] at e
  cases e

end ZroServices.Tradair
