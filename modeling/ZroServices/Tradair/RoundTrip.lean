import Mathlib.Data.List.Chain
import ZroServices.Tradair.ParseBody

/-!
# Tradair — which messages are read back

`parse_build` says exactly which messages of a model the parser reads back as they were built
(`Readable`): those without a sign `=` in a text, of a type whose groups have no groups, with all of
its groups, a group with entries only at the end, and entries that begin with a field that the entry
before has.  `not_read` is a message that is not.
-/

namespace ZroServices.Tradair

open Foundation FixParser

variable {ν : Type} {js : Numbers ν} {m : FixModel} {S : FixStructure} {M : FixMessage}
  {message : FixDecodedMessage ν} {body : List (Item ν)}
variable {e is : List (Item ν)} {name : Name}
variable {group : FixGroup} {es : List (List (Item ν))}

/-! ### Header and trailer -/

/-- An item that is read, of a field. -/
def readItem : Item ν → Item ν
  | .field name v => .field name (readBack v)
  | i => i

theorem keys_readItem (e : List (Item ν)) : keys (e.map readItem) = keys e := by
  rw [keys, List.map_map]
  refine List.map_congr_left fun i _ => ?_
  cases i <;> rfl

theorem readItems_eq : e.map readItem = e ↔ Reads e := by
  have hitem : ∀ i : Item ν, readItem i = i ↔ ∀ name v, i = .field name v → readBack v = v := by
    intro i
    cases i with
    | field name v =>
        refine ⟨fun h name' v' e => ?_, fun h => congrArg _ (h name v rfl)⟩
        cases e
        exact (Item.field.inj h).2
    | group name es => exact ⟨fun _ _ _ e => (nomatch e), fun _ => rfl⟩
  induction e with
  | nil => exact ⟨fun _ i hi => absurd hi List.not_mem_nil, fun _ => rfl⟩
  | cons i e ih =>
      rw [List.map_cons, List.cons.injEq, Reads, List.forall_mem_cons]
      exact and_congr (hitem i) ih

theorem foldl_assign {message : List (Item ν)} (h : (keys (message ++ e)).Nodup) :
    e.foldl assign message = message ++ e := by
  induction e generalizing message with
  | nil => exact (List.append_nil _).symm
  | cons i e ih =>
      rw [List.foldl_cons, assign_new (new_of_nodup h), ih (by rwa [List.append_assoc]),
        List.append_assoc, List.singleton_append]

/-- The values of the tokens of fields. -/
theorem getValues_eq (hm : m.WellFormed) (he : Entry js m S e) :
    getValues js m ((e.map (headToken js m)).map readToken) = .ok (e.map readItem) := by
  have hvalues : ((e.map (headToken js m)).map readToken).mapM (getValue js m)
      = .ok (e.map readItem) := by
    have hplain := he.plain
    clear he
    induction e with
    | nil => rfl
    | cons i e ih =>
        obtain ⟨name, v, info, rfl, h⟩ := hplain i List.mem_cons_self
        have hvalue : getValue js m (readToken (headToken js m (.field name v)))
            = .ok (.field name (readBack v)) := by
          obtain ⟨-, rfl⟩ := byName_spec h.known
          have hparse : fixFieldParsers js
              (readToken (headToken js m (.field info.name v))).value info.type = .ok (readBack v) :=
            (parse_built js h.accepts.takes).2
          rw [getValue, headToken, byNumber_readToken hm h.known]
          rw [headToken] at hparse
          dsimp only
          rw [hparse]
          rfl
        rw [List.map_cons, List.map_cons, List.mapM_cons, hvalue,
          ih fun i hi => hplain i (List.mem_cons_of_mem _ hi)]
        rfl
  rw [getValues, hvalues]
  have hfold : (e.map readItem).foldl assign [] = e.map readItem :=
    foldl_assign (show (keys (e.map readItem)).Nodup from keys_readItem e ▸ he.nodup)
  exact congrArg Except.ok hfold

/-! ### Tokens of the header, the body and the trailer -/

/-- The token has the tag of one of the names. -/
def Named (m : FixModel) (names : List Name) (t : FixToken) : Prop :=
  ∃ name info, name ∈ names ∧ m.byName name = some info ∧ t.tag = info.number

theorem Named.mono {names names' : List Name} {t : FixToken} (h : Named m names t)
    (hsub : ∀ name ∈ names, name ∈ names') : Named m names' t := by
  obtain ⟨name, info, hname, hrest⟩ := h
  exact ⟨name, info, hsub name hname, hrest⟩

theorem Named.mem_numbers (hm : m.WellFormed) {fs : FixFields} {t : FixToken}
    (h : Named m fs.names t) : t.tag ∈ m.numbers fs := by
  obtain ⟨name, info, hname, hinfo, e⟩ := h
  rw [e]
  exact (Tradair.mem_numbers hm hinfo).mpr hname

theorem Named.not_mem_numbers (hm : m.WellFormed) {fs : FixFields} {names : List Name} {t : FixToken}
    (h : Named m names t) (hdisjoint : fs.names.Disjoint names) : t.tag ∉ m.numbers fs := by
  obtain ⟨name, info, hname, hinfo, e⟩ := h
  rw [e]
  exact fun hmem => hdisjoint ((Tradair.mem_numbers hm hinfo).mp hmem) hname

theorem Entry.named (h : Entry js m S e) :
    ∀ t ∈ (e.map (headToken js m)).map readToken, Named m S.fieldNames t := by
  intro t ht
  obtain ⟨t', ht', rfl⟩ := List.mem_map.mp ht
  obtain ⟨i, hi, rfl⟩ := List.mem_map.mp ht'
  obtain ⟨name, v, info, rfl, hplain⟩ := h.plain i hi
  exact ⟨name, info, hplain.mem, hplain.known, tagOf_eq hplain.known⟩

theorem innerNames_subset {groups : List FixGroup} (h : group ∈ groups) :
    ∀ name ∈ group.innerNames, name ∈ groupsNames groups := by
  induction groups with
  | nil => cases h
  | cons g groups ih =>
      intro name hname
      rw [groupsNames]
      rcases List.mem_cons.mp h with rfl | h
      · exact List.mem_cons_of_mem _ (List.mem_append_left _ hname)
      · exact List.mem_cons_of_mem _ (List.mem_append_right _ (ih h name hname))

theorem bodyTokens_named (hbody : ∀ i ∈ body, Shallow js m S i) :
    ∀ t ∈ bodyTokens js m body, Named m S.allNames t := by
  intro t ht
  obtain ⟨t', ht', rfl⟩ := List.mem_map.mp ht
  obtain ⟨i, hi, ht'⟩ := List.mem_flatMap.mp ht'
  cases hbody i hi with
  | field h =>
      obtain rfl := List.mem_singleton.mp ht'
      exact ⟨_, _, List.mem_append_left _ h.mem, h.known, tagOf_eq h.known⟩
  | @group name es info group hname hinfo hnumeric hgroup hflat hentries =>
      have hmem := List.mem_of_find?_eq_some hgroup
      rcases List.mem_cons.mp ht' with rfl | ht'
      · have hkey : group.name = name := by simpa using List.find?_some hgroup
        exact ⟨name, info, List.mem_append_right _ (mem_groupsNames (hkey ▸ List.mem_map_of_mem hmem)),
          hinfo, tagOf_eq hinfo⟩
      · obtain ⟨e, he, ht'⟩ := List.mem_flatMap.mp ht'
        refine ((hentries e he).2.named _ (List.mem_map_of_mem ht')).mono fun name' hname' => ?_
        exact List.mem_append_right _ (innerNames_subset hmem name' (fieldNames_inner hname'))

/-- The tokens that are read of a message. -/
def messageTokens (js : Numbers ν) (m : FixModel) (message : FixDecodedMessage ν) : List FixToken :=
  (message.header.map (headToken js m)).map readToken ++ bodyTokens js m message.body ++
    (message.trailer.map (headToken js m)).map readToken

/-- A message whose header and trailer are known, and whose groups have no groups. -/
structure Parts (js : Numbers ν) (m : FixModel) (M : FixMessage) (message : FixDecodedMessage ν) :
    Prop where
  header : Entry js m ⟨m.header, []⟩ message.header
  trailer : Entry js m ⟨m.trailer, []⟩ message.trailer
  body : ∀ i ∈ message.body, Shallow js m M.toFixStructure i
  nodup : (keys message.body).Nodup

theorem Satisfies.parts (hm : m.WellFormed) (h : Satisfies js m M message)
    (hflat : ∀ group ∈ M.group, group.structure.group = []) : Parts js m M message := by
  refine ⟨h.header.entry rfl, h.trailer.entry rfl, h.body.shallow hm h.mem hflat, ?_⟩
  cases h.body with
  | intro nodup => exact nodup

/-- The text of a message, and the tokens that are read of it. -/
theorem Parts.tokens (hm : m.WellFormed) (hM : m.messageOfName message.name = some M)
    (h : Parts js m M message) :
    ∃ text, build js m message = .ok text ∧ FixParser.tokens text = messageTokens js m message := by
  let ts := message.header.map (headToken js m) ++ message.body.flatMap (itemTokens js m) ++
    message.trailer.map (headToken js m)
  have hdelimited : ∀ t ∈ ts, Delimited t := by
    intro t ht
    rcases List.mem_append.mp ht with ht | ht
    · rcases List.mem_append.mp ht with ht | ht
      · exact h.header.delimited hm t ht
      · obtain ⟨i, hi, ht⟩ := List.mem_flatMap.mp ht
        exact (h.body i hi).delimited hm t ht
    · exact h.trailer.delimited hm t ht
  refine ⟨textOf ts, ?_, ?_⟩
  · rw [build, hM]
    dsimp only
    rw [buildMessage_entry h.header.plain, buildMessage_eq h.body, buildMessage_entry h.trailer.plain,
      textOf_append, textOf_append]
    rfl
  · have htext := tokens_text (fun t ht => (hdelimited t ht).1) fun t ht => (hdelimited t ht).2
    refine htext.trans ?_
    rw [messageTokens, bodyTokens, ← List.map_append, ← List.map_append]
    rfl

theorem filter_append₃ {α : Type} {p : α → Bool} {xs ys zs : List α} :
    (xs ++ ys ++ zs).filter p = xs.filter p ++ ys.filter p ++ zs.filter p := by
  rw [List.filter_append, List.filter_append]

/-- What the tokens are told apart by. -/
theorem Parts.filters (hm : m.WellFormed) (hM : M ∈ m.messages) (h : Parts js m M message) :
    (messageTokens js m message).filter (fun t => t.tag ∈ m.numbers m.header)
        = (message.header.map (headToken js m)).map readToken ∧
      (messageTokens js m message).filter (fun t => t.tag ∈ m.numbers m.trailer)
        = (message.trailer.map (headToken js m)).map readToken ∧
      (messageTokens js m message).filter
          (fun t => t.tag ∉ m.numbers m.header ∧ t.tag ∉ m.numbers m.trailer)
        = bodyTokens js m message.body := by
  obtain ⟨hbodyHeader, hbodyTrailer⟩ := List.disjoint_append_left.mp (hm.body M hM)
  have header : ∀ t ∈ (message.header.map (headToken js m)).map readToken,
      t.tag ∈ m.numbers m.header ∧ t.tag ∉ m.numbers m.trailer := fun t ht =>
    have hnamed : Named m m.header.names t := h.header.named t ht
    ⟨hnamed.mem_numbers hm, hnamed.not_mem_numbers hm (List.disjoint_symm hm.ends)⟩
  have trailer : ∀ t ∈ (message.trailer.map (headToken js m)).map readToken,
      t.tag ∉ m.numbers m.header ∧ t.tag ∈ m.numbers m.trailer := fun t ht =>
    have hnamed : Named m m.trailer.names t := h.trailer.named t ht
    ⟨hnamed.not_mem_numbers hm hm.ends, hnamed.mem_numbers hm⟩
  have body : ∀ t ∈ bodyTokens js m message.body,
      t.tag ∉ m.numbers m.header ∧ t.tag ∉ m.numbers m.trailer := fun t ht =>
    have hnamed := bodyTokens_named h.body t ht
    ⟨hnamed.not_mem_numbers hm hbodyHeader, hnamed.not_mem_numbers hm hbodyTrailer⟩
  refine ⟨?_, ?_, ?_⟩
  · rw [messageTokens, filter_append₃, List.filter_eq_self.mpr fun t ht =>
      decide_eq_true (header t ht).1, List.filter_eq_nil_iff.mpr fun t ht h =>
        (body t ht).1 (of_decide_eq_true h), List.filter_eq_nil_iff.mpr fun t ht h =>
          (trailer t ht).1 (of_decide_eq_true h), List.append_nil, List.append_nil]
  · rw [messageTokens, filter_append₃, List.filter_eq_nil_iff.mpr fun t ht h =>
      (header t ht).2 (of_decide_eq_true h), List.filter_eq_nil_iff.mpr fun t ht h =>
        (body t ht).2 (of_decide_eq_true h), List.filter_eq_self.mpr fun t ht =>
          decide_eq_true (trailer t ht).2]
    rfl
  · rw [messageTokens, filter_append₃, List.filter_eq_nil_iff.mpr fun t ht h =>
      (of_decide_eq_true h).1 (header t ht).1, List.filter_eq_self.mpr fun t ht =>
        decide_eq_true (body t ht), List.filter_eq_nil_iff.mpr fun t ht h =>
          (of_decide_eq_true h).2 (trailer t ht).2, List.append_nil]
    rfl

/-! ### The message -/

/-- The type of a message is that of its header. -/
theorem msgType_eq {header : List (Item ν)} (hnodup : (keys header).Nodup)
    (h : .field "MsgType" (.text M.msgtype) ∈ header) : msgType js header = M.msgtype := by
  have hfind : header.find? (fun item => item.name = "MsgType")
      = some (.field "MsgType" (.text M.msgtype)) :=
    find?_eq_some_of_forall h rfl fun i hi hname =>
      List.inj_on_of_nodup_map hnodup hi h (of_decide_eq_true hname)
  rw [msgType, hfind]
  rfl

/-- **The message that is read is the one that was built** when its values are read back and the
entries of its groups end where they do. -/
theorem getFixMessage_iff (hm : m.WellFormed) (h : Satisfies js m M message)
    (hparts : Parts js m M message) (hapart : Apart M.toFixStructure) :
    getFixMessage js m (messageTokens js m message) = .ok message ↔
      (Reads message.header ∧ Reads message.trailer) ∧
        BodyReads js m M.toFixStructure message.body := by
  obtain ⟨hheader, htrailer, hbody⟩ := hparts.filters hm h.mem
  have hreads : ∀ rest, getStructureValue js m (bodyTokens js m message.body).length
        M.toFixStructure [] (bodyTokens js m message.body) = .ok (message.body, rest) ↔
      rest = [] ∧ BodyReads js m M.toFixStructure message.body := fun _ =>
    getStructureValue_body hm hapart hparts.body hparts.nodup le_rfl
  have htype : m.messageOfType (msgType js message.header) = some M := by
    rw [msgType_eq hparts.header.nodup h.msgType]
    exact find?_reverse hm.messageTypes h.mem
  rw [getFixMessage, hheader, htrailer, hbody, getValues_eq hm hparts.header,
    getValues_eq hm hparts.trailer]
  constructor
  · intro hrun
    obtain ⟨header, e, hrun⟩ := bind_eq_ok.mp hrun
    obtain rfl := Except.ok.inj e
    obtain ⟨trailer, e, hrun⟩ := bind_eq_ok.mp hrun
    obtain rfl := Except.ok.inj e
    cases hM : m.messageOfType (msgType js (message.header.map readItem)) with
    | none => rw [hM] at hrun; cases hrun
    | some M' =>
        rw [hM] at hrun
        obtain ⟨⟨body, rest⟩, hvalue, e⟩ := bind_eq_ok.mp hrun
        have e := Except.ok.inj e
        have eheader : message.header.map readItem = message.header := congrArg (·.header) e
        have etrailer : message.trailer.map readItem = message.trailer := congrArg (·.trailer) e
        obtain rfl : body = message.body := congrArg (·.body) e
        rw [eheader, htype] at hM
        obtain rfl := Option.some.inj hM
        exact ⟨⟨readItems_eq.mp eheader, readItems_eq.mp etrailer⟩, ((hreads rest).mp hvalue).2⟩
  · rintro ⟨⟨eheader, etrailer⟩, hbodyReads⟩
    rw [readItems_eq.mpr eheader, readItems_eq.mpr etrailer]
    refine bind_eq_ok.mpr ⟨_, rfl, bind_eq_ok.mpr ⟨_, rfl, ?_⟩⟩
    rw [htype]
    refine bind_eq_ok.mpr ⟨(message.body, []), (hreads []).mpr ⟨rfl, hbodyReads⟩, ?_⟩
    rw [← h.name]
    rfl

/-! ### The required fields -/

theorem forM_eq_ok {α ε : Type} {f : α → Except ε Unit} {xs : List α} :
    xs.forM f = .ok () ↔ ∀ x ∈ xs, f x = .ok () := by
  induction xs with
  | nil => exact ⟨fun _ _ h => absurd h List.not_mem_nil, fun _ => rfl⟩
  | cons x xs ih =>
      rw [List.forall_mem_cons, ← ih]
      constructor
      · intro h
        obtain ⟨⟨⟩, hx, h⟩ := bind_eq_ok.mp h
        exact ⟨hx, h⟩
      · exact fun h => bind_eq_ok.mpr ⟨(), h.1, h.2⟩

theorem missingRequired_eq_nil {fs : FixFields} {groups : List FixGroup} (h : Fits js m ⟨fs, groups⟩ body) :
    missingRequired fs body = [] := by
  cases h with
  | intro _ required =>
      rw [missingRequired, List.filter_eq_nil_iff]
      intro name hname hmissing
      obtain ⟨field, hfield, rfl⟩ := List.mem_map.mp hname
      obtain ⟨hmem, hrequired⟩ := List.mem_filter.mp hfield
      exact of_decide_eq_true hmissing (required field hmem hrequired)

theorem isSome_valueOf (h : ∀ v, .field name v ∉ body) :
    (valueOf body name).isSome ↔ name ∈ keys body := by
  rw [valueOf]
  cases hfind : body.find? fun item => item.name = name with
  | none =>
      refine iff_of_false Bool.false_ne_true fun hmem => ?_
      obtain ⟨item, hitem, hname⟩ := List.mem_map.mp hmem
      exact List.find?_eq_none.mp hfind item hitem (decide_eq_true hname)
  | some item =>
      have hitem := List.mem_of_find?_eq_some hfind
      have hname : item.name = name := by simpa using List.find?_some hfind
      cases item with
      | field key v => exact absurd (hname ▸ hitem) (h v)
      | group key entries => exact iff_of_true rfl (List.mem_map.mpr ⟨_, hitem, hname⟩)

theorem checkRequiredGroup_iff : checkRequiredGroup body group = .ok () ↔
    (valueOf body group.name).isSome ∧ group.structure.group = [] := by
  rw [checkRequiredGroup]
  split
  · rename_i hbad
    refine iff_of_false (fun h => nomatch h) fun hgood => ?_
    exact hbad.elim (Option.isSome_iff_ne_none.mp hgood.1) fun hb => hb hgood.2
  · rename_i hgood
    rw [not_or, not_not] at hgood
    exact iff_of_true rfl ⟨Option.isSome_iff_ne_none.mpr hgood.1, hgood.2⟩

/-- **What is required is there** when the groups of the message have no groups and are all there;
for any other message the parser ends with an error. -/
theorem checkRequiredFields_iff (hm : m.WellFormed) (h : Satisfies js m M message) :
    checkRequiredFields m message = .ok [] ↔
      ∀ group ∈ M.group, group.name ∈ keys message.body ∧ group.structure.group = [] := by
  have hname : m.messageOfName message.name = some M := by
    rw [h.name]
    exact find?_reverse hm.messageNames h.mem
  have hgroup : ∀ group ∈ M.group, checkRequiredGroup message.body group = .ok () ↔
      group.name ∈ keys message.body ∧ group.structure.group = [] := by
    intro group hmem
    rw [checkRequiredGroup_iff, isSome_valueOf]
    intro v hv
    cases h.body with
    | intro _ _ fields =>
        exact hm.fields M h.mem (fields _ v hv).1 (List.mem_map_of_mem hmem)
  rw [checkRequiredFields, hname]
  constructor
  · intro hrun
    obtain ⟨missing, hmissing, -⟩ := bind_eq_ok.mp hrun
    obtain ⟨⟨⟩, hforM, -⟩ := bind_eq_ok.mp hmissing
    exact fun group hmem => (hgroup group hmem).mp (forM_eq_ok.mp hforM group hmem)
  · intro hgroups
    have hforM : M.group.forM (checkRequiredGroup message.body) = .ok () :=
      forM_eq_ok.mpr fun group hmem => (hgroup group hmem).mpr (hgroups group hmem)
    refine bind_eq_ok.mpr ⟨[], bind_eq_ok.mpr ⟨(), hforM, ?_⟩, ?_⟩
    · exact congrArg Except.ok (missingRequired_eq_nil h.body)
    · rw [missingRequired_eq_nil h.header, missingRequired_eq_nil h.trailer]
      rfl

/-! ### Where entries end -/

theorem stops_cons (hm : m.WellFormed) {info : FixFieldInfo}
    (h : m.byName name = some info) (value : Text) (ts : List FixToken) :
    Stops m S body (readToken (tagOf m name, value) :: ts) ↔
      name ∈ S.fieldNames ∧ name ∈ keys body := by
  obtain ⟨-, rfl⟩ := byName_spec h
  have hinfo := byNumber_readToken hm h value
  constructor
  · intro hstops
    obtain ⟨info', hinfo', hrest⟩ := hstops _ rfl
    obtain rfl := Option.some.inj (hinfo.symm.trans hinfo')
    exact hrest
  · intro hrest t ht
    obtain rfl := Option.some.inj ht
    exact ⟨info, hinfo, hrest⟩

/-- An entry ends before another one when it has the first key of that one. -/
theorem stops_entry (hm : m.WellFormed) {e' : List (Item ν)} (hne : e' ≠ [])
    (he' : Entry js m S e') (es : List (List (Item ν))) (ts : List FixToken) :
    Stops m S e (entryTokens js m (e' :: es) ++ ts) ↔ ∀ i ∈ e'.head?, i.name ∈ keys e := by
  obtain ⟨i, e'', rfl⟩ := List.exists_cons_of_ne_nil hne
  obtain ⟨name, v, info, rfl, hplain⟩ := he'.plain i List.mem_cons_self
  rw [entryTokens_cons, List.map_cons, List.map_cons, List.cons_append, List.cons_append, headToken,
    stops_cons hm hplain.known, and_iff_right hplain.mem]
  refine ⟨fun h i hi => ?_, fun h => h _ rfl⟩
  obtain rfl := Option.some.inj hi
  exact h

/-- An entry of a group does not end before a token of the structure that the group is in. -/
theorem stops_bodyTokens (hm : m.WellFormed) (hapart : Apart S)
    (hgroup : group ∈ S.group) (his : ∀ i ∈ is, Shallow js m S i) :
    Stops m group.structure body (bodyTokens js m is) ↔ is = [] := by
  cases is with
  | nil => exact iff_of_true (fun t ht => nomatch ht) rfl
  | cons i is =>
      refine iff_of_false (fun hstops => ?_) (List.cons_ne_nil i is)
      cases his i List.mem_cons_self with
      | field h =>
          rw [bodyTokens_field, headToken, stops_cons hm h.known] at hstops
          exact hapart.levels group hgroup (List.mem_append_left _ h.mem)
            (fieldNames_inner hstops.1)
      | @group name es info group' hname hinfo hnumeric hfind hflat hentries =>
          rw [bodyTokens_group, headToken, stops_cons hm hinfo] at hstops
          have hkey : group'.name = name := by simpa using List.find?_some hfind
          have hin : name ∈ S.groupNames :=
            hkey ▸ List.mem_map_of_mem (List.mem_of_find?_eq_some hfind)
          exact hapart.levels group hgroup (List.mem_append_right _ hin) (fieldNames_inner hstops.1)

/-- An entry begins with a key that the entry before it has. -/
def Begins (e e' : List (Item ν)) : Prop := ∀ i ∈ e'.head?, i.name ∈ keys e

theorem endsAt_iff (hm : m.WellFormed) (hapart : Apart S) (hgroup : group ∈ S.group)
    (hes : ∀ e ∈ es, e ≠ [] ∧ Entry js m group.structure e)
    (his : ∀ i ∈ is, Shallow js m S i) :
    EndsAt js m group.structure es (bodyTokens js m is) ↔ es.IsChain Begins ∧ (es = [] ∨ is = []) := by
  induction es with
  | nil => exact iff_of_true trivial ⟨.nil, Or.inl rfl⟩
  | cons e es ih =>
      have hrest := ih fun e he => hes e (List.mem_cons_of_mem _ he)
      cases es with
      | nil =>
          rw [EndsAt, EndsAt, and_true]
          refine (stops_bodyTokens hm hapart hgroup his).trans ?_
          simp
      | cons e' es =>
          obtain ⟨hne, hentry⟩ := hes e' (List.mem_cons_of_mem _ List.mem_cons_self)
          rw [EndsAt, stops_entry hm hne hentry, hrest, List.isChain_cons_cons, and_assoc]
          simp [Begins]

/-! ### Readable messages -/

/-- No text of the item has a sign `=`. -/
inductive NoEquals : Item ν → Prop
  | field {name : Name} {v : Scalar ν} (h : ∀ s, v = .text s → '=' ∉ s) : NoEquals (.field name v)
  | group {name : Name} {entries : List (List (Item ν))}
      (h : ∀ e ∈ entries, ∀ i ∈ e, NoEquals i) : NoEquals (.group name entries)

theorem noEquals_field {v : Scalar ν} : NoEquals (.field name v) ↔ readBack v = v :=
  ⟨fun h => match h with | .field h => readBack_eq.mpr h, fun h => .field (readBack_eq.mp h)⟩

theorem noEquals_reads (he : Entry js m S e) : (∀ i ∈ e, NoEquals i) ↔ Reads e := by
  refine forall₂_congr fun i hi => ?_
  obtain ⟨name, v, info, rfl, -⟩ := he.plain i hi
  rw [noEquals_field]
  refine ⟨fun h name' v' e' => ?_, fun h => h name v rfl⟩
  cases e'
  exact h

/-- What others follow has no entries. -/
def Ends (body : List (Item ν)) : Prop :=
  body.Pairwise fun i _ => ∀ name entries, i = .group name entries → entries = []

theorem ends_field {v : Scalar ν} : Ends (.field name v :: is) ↔ Ends is :=
  List.pairwise_cons.trans (and_iff_right fun _ _ _ _ e => nomatch e)

theorem ends_group : Ends (.group name es :: is) ↔ (es = [] ∨ is = []) ∧ Ends is := by
  refine List.pairwise_cons.trans (and_congr_left fun _ => ⟨fun h => ?_, fun h i hi => ?_⟩)
  · cases is with
    | nil => exact Or.inr rfl
    | cons i is => exact Or.inl (h i List.mem_cons_self name es rfl)
  · rintro name' es' e
    obtain ⟨-, rfl⟩ := Item.group.inj e
    exact h.resolve_right fun hnil => absurd (hnil ▸ hi) List.not_mem_nil

/-- Every entry but the first of its group begins with a key that the entry before it has. -/
def Chained (body : List (Item ν)) : Prop :=
  ∀ name entries, .group name entries ∈ body → entries.IsChain Begins

theorem chained_field {v : Scalar ν} : Chained (.field name v :: is) ↔ Chained is := by
  refine forall₂_congr fun name entries => imp_congr_left ?_
  rw [List.mem_cons]
  exact or_iff_right fun e => nomatch e

theorem chained_group : Chained (.group name es :: is) ↔ es.IsChain Begins ∧ Chained is := by
  constructor
  · exact fun h => ⟨h name es List.mem_cons_self,
      fun name' es' hmem => h name' es' (List.mem_cons_of_mem _ hmem)⟩
  · rintro ⟨hes, his⟩ name' es' hmem
    rcases List.mem_cons.mp hmem with e | hmem
    · obtain ⟨-, rfl⟩ := Item.group.inj e
      exact hes
    · exact his name' es' hmem

/-- The message is one that the parser reads back. -/
structure Readable (M : FixMessage) (message : FixDecodedMessage ν) : Prop where
  noEquals : ∀ i ∈ message.header ++ message.body ++ message.trailer, NoEquals i
  flat : ∀ group ∈ M.group, group.structure.group = []
  present : ∀ group ∈ M.group, group.name ∈ keys message.body
  ends : Ends message.body
  begins : Chained message.body

theorem bodyReads_iff (hm : m.WellFormed) (hapart : Apart S) (hbody : ∀ i ∈ body, Shallow js m S i) :
    BodyReads js m S body ↔ (∀ i ∈ body, NoEquals i) ∧ Ends body ∧ Chained body := by
  induction body with
  | nil =>
      refine iff_of_true trivial ⟨fun i hi => absurd hi List.not_mem_nil, .nil, fun _ _ hi => ?_⟩
      exact absurd hi List.not_mem_nil
  | cons i is ih =>
      have his : ∀ i ∈ is, Shallow js m S i := fun i hi => hbody i (List.mem_cons_of_mem _ hi)
      rw [List.forall_mem_cons]
      cases hbody i List.mem_cons_self with
      | @field name v info h =>
          rw [BodyReads, ih his, noEquals_field, ends_field, chained_field, and_assoc]
      | @group name es info group hname hinfo hnumeric hgroup hflat hentries =>
          have hvalues : NoEquals (.group name es) ↔ ∀ e ∈ es, Reads e := by
            have hentry := fun e (he : e ∈ es) => noEquals_reads (hentries e he).2
            refine ⟨fun h e he => ?_, fun h => .group fun e he => (hentry e he).mpr (h e he)⟩
            cases h with
            | group h => exact (hentry e he).mp (h e he)
          have hends : (∀ group', S.group.find? (fun group => group.name = name) = some group' →
              EndsAt js m group'.structure es (bodyTokens js m is)) ↔
                es.IsChain Begins ∧ (es = [] ∨ is = []) := by
            rw [← endsAt_iff hm hapart (List.mem_of_find?_eq_some hgroup) hentries his]
            simp [hgroup]
          rw [BodyReads, ih his, hvalues, hends, ends_group, chained_group]
          tauto

/-- An entry without groups fits a structure that its required fields are of. -/
theorem Entry.fits (h : Entry js m S e)
    (hrequired : ∀ field ∈ S.field.list, field.required → field.name ∈ keys e) : Fits js m S e := by
  have hgroup : ∀ name es, .group name es ∉ e := by
    intro name es hi
    obtain ⟨_, _, _, e', -⟩ := h.plain _ hi
    cases e'
  refine .intro h.nodup hrequired (fun name v hi => ?_) (fun _ _ hi => absurd hi (hgroup _ _))
    (fun _ _ _ hi => absurd hi (hgroup _ _)) fun _ _ _ hi => absurd hi (hgroup _ _)
  obtain ⟨name', v', info, e', hplain⟩ := h.plain _ hi
  obtain ⟨rfl, rfl⟩ := Item.field.inj e'
  exact ⟨hplain.mem, info, hplain.known, hplain.accepts⟩

namespace Sample

/-- Numbers that print as their decimals. -/
def naturals : Numbers ℕ where
  toText := Nat.toDigits 10
  parseFloat s := (parseDigits s).getD 0
  toNat? := some
  truthy n := n ≠ 0
  parseFloat_toText n := by rw [parseDigits_toDigits]; rfl
  toText_clean n := ⟨not_mem_toDigits rfl n, not_mem_toDigits rfl n⟩
  toNat?_parseFloat n := by rw [parseDigits_toDigits]; rfl

def prices : FixGroup := .mk "NoMDEntries" ⟨⟨"MDEntryPx", true⟩, [⟨"MDEntrySize", false⟩]⟩ []

/-- News with a text and prices. -/
def news : FixMessage where
  field := ⟨⟨"Text", false⟩, []⟩
  group := [prices]
  name := "News"
  msgtype := ['B']

def model : FixModel where
  header := ⟨⟨"MsgType", true⟩, []⟩
  trailer := ⟨⟨"CheckSum", true⟩, []⟩
  fields := [⟨['3', '5'], "MsgType", .STRING, []⟩, ⟨['1', '0'], "CheckSum", .STRING, []⟩,
    ⟨['5', '8'], "Text", .STRING, []⟩, ⟨['2', '6', '8'], "NoMDEntries", .INT, []⟩,
    ⟨['2', '7', '0'], "MDEntryPx", .PRICE, []⟩, ⟨['2', '7', '1'], "MDEntrySize", .QTY, []⟩]
  messages := [news]

def entries : List (List (Item ℕ)) :=
  [[.field "MDEntryPx" (.number 3)],
    [.field "MDEntryPx" (.number 4), .field "MDEntrySize" (.number 10)]]

/-- News with a text and two prices. -/
def sample (text : Text) : FixDecodedMessage ℕ where
  name := "News"
  header := [.field "MsgType" (.text ['B'])]
  body := [.field "Text" (.text text), .group "NoMDEntries" entries]
  trailer := [.field "CheckSum" (.text ['0'])]

theorem wellFormed : model.WellFormed where
  numbers := by decide
  names := by decide
  tags := by decide
  messageTypes := by decide
  messageNames := by decide
  known := by decide
  ends := by unfold List.Disjoint; decide
  body := by unfold List.Disjoint; decide
  fields := by unfold List.Disjoint; decide
  levels := by unfold List.Disjoint; decide
  counts := by decide

theorem entries_fit : ∀ e ∈ entries,
    prices.structure.field.first.name ∈ keys e ∧ Fits naturals model prices.structure e := by
  have hprice : ∀ n, Plain naturals model prices.structure "MDEntryPx" (.number n)
      ⟨['2', '7', '0'], "MDEntryPx", .PRICE, []⟩ := fun n =>
    ⟨by decide, rfl, trivial, not_mem_toDigits rfl n, Or.inl rfl⟩
  have hsize : ∀ n, Plain naturals model prices.structure "MDEntrySize" (.number n)
      ⟨['2', '7', '1'], "MDEntrySize", .QTY, []⟩ := fun n =>
    ⟨by decide, rfl, trivial, not_mem_toDigits rfl n, Or.inl rfl⟩
  have hfirst : Entry naturals model prices.structure [.field "MDEntryPx" (.number 3)] := by
    refine ⟨by decide, fun i hi => ?_⟩
    obtain rfl := List.mem_singleton.mp hi
    exact ⟨_, _, _, rfl, hprice 3⟩
  have hsecond : Entry naturals model prices.structure
      [.field "MDEntryPx" (.number 4), .field "MDEntrySize" (.number 10)] := by
    refine ⟨by decide, fun i hi => ?_⟩
    rcases List.mem_cons.mp hi with rfl | hi
    · exact ⟨_, _, _, rfl, hprice 4⟩
    · obtain rfl := List.mem_singleton.mp hi
      exact ⟨_, _, _, rfl, hsize 10⟩
  intro e he
  rcases List.mem_cons.mp he with rfl | he
  · exact ⟨by decide, hfirst.fits (by decide)⟩
  · obtain rfl := List.mem_singleton.mp he
    exact ⟨by decide, hsecond.fits (by decide)⟩

theorem plain_text {S : FixStructure} {name : Name} {info : FixFieldInfo} {text : Text}
    (h : '|' ∉ text) (hmem : name ∈ S.fieldNames) (hinfo : model.byName name = some info)
    (htype : info.type = .STRING) (henum : info.value = []) :
    Plain naturals model S name (.text text) info := by
  refine ⟨hmem, hinfo, ?_, h, Or.inl henum⟩
  rw [htype]
  trivial

theorem fits_single {name : Name} {required : Bool} {v : Scalar ℕ} {info : FixFieldInfo}
    (h : Plain naturals model ⟨⟨⟨name, required⟩, []⟩, []⟩ name v info) :
    Fits naturals model ⟨⟨⟨name, required⟩, []⟩, []⟩ [.field name v] := by
  have hentry : Entry naturals model ⟨⟨⟨name, required⟩, []⟩, []⟩ [.field name v] := by
    refine ⟨List.nodup_singleton _, fun i hi => ?_⟩
    obtain rfl := List.mem_singleton.mp hi
    exact ⟨_, _, _, rfl, h⟩
  refine hentry.fits fun field hfield _ => ?_
  obtain rfl := List.mem_singleton.mp hfield
  exact List.mem_singleton_self _

theorem satisfies {text : Text} (h : '|' ∉ text) : Satisfies naturals model news (sample text) := by
  refine ⟨List.mem_singleton_self _, rfl, List.mem_singleton_self _, ?_, ?_, ?_⟩
  · exact fits_single (plain_text (by decide) (by decide) rfl rfl rfl)
  · refine .intro (show ["Text", "NoMDEntries"].Nodup by decide) ?_ (fun name v hi => ?_)
      (fun name es hi => ?_) (fun name es group hi hgroup => ?_) fun name es group hi hgroup => ?_
    · exact fun field hfield hrequired => by
        obtain rfl := List.mem_singleton.mp hfield
        cases hrequired
    · rcases List.mem_cons.mp hi with e | hi
      · obtain ⟨rfl, rfl⟩ := Item.field.inj e
        have hplain : ∃ info, Plain naturals model news.toFixStructure "Text" (.text text) info :=
          ⟨_, plain_text h (by decide) rfl rfl rfl⟩
        obtain ⟨info, hplain⟩ := hplain
        exact ⟨hplain.mem, info, hplain.known, hplain.accepts⟩
      · cases List.mem_singleton.mp hi
    · rcases List.mem_cons.mp hi with e | hi
      · cases e
      · obtain ⟨rfl, rfl⟩ := Item.group.inj (List.mem_singleton.mp hi)
        exact ⟨_, rfl⟩
    · rcases List.mem_cons.mp hi with e | hi
      · cases e
      · obtain ⟨rfl, rfl⟩ := Item.group.inj (List.mem_singleton.mp hi)
        obtain rfl : prices = group := Option.some.inj hgroup
        exact fun e he => (entries_fit e he).1
    · rcases List.mem_cons.mp hi with e | hi
      · cases e
      · obtain ⟨rfl, rfl⟩ := Item.group.inj (List.mem_singleton.mp hi)
        obtain rfl : prices = group := Option.some.inj hgroup
        exact fun e he => (entries_fit e he).2
  · exact fits_single (plain_text (by decide) (by decide) rfl rfl rfl)

theorem readable {text : Text} (h : '=' ∉ text) : Readable news (sample text) := by
  have htext : ∀ {name : Name} {s : Text}, '=' ∉ s → NoEquals (.field name (.text s) : Item ℕ) :=
    fun hs => .field fun s' e => Scalar.text.inj e ▸ hs
  have hnumber : ∀ {name : Name} (n : ℕ), NoEquals (.field name (.number n)) := fun n =>
    .field fun _ e => nomatch e
  have hentries : ∀ e ∈ entries, ∀ i ∈ e, NoEquals i := by
    simp only [entries, List.forall_mem_cons]
    exact ⟨⟨hnumber 3, by simp⟩, ⟨hnumber 4, hnumber 10, by simp⟩, by simp⟩
  refine ⟨?_, by decide, fun group hgroup => ?_, ?_, ?_⟩
  · simp only [sample, List.forall_mem_append, List.forall_mem_cons]
    exact ⟨⟨⟨htext (by decide), by simp⟩, htext h, .group hentries, by simp⟩, htext (by decide),
      by simp⟩
  · obtain rfl := List.mem_singleton.mp hgroup
    exact List.mem_cons_of_mem _ (List.mem_singleton_self _)
  · exact ends_field.mpr (ends_group.mpr ⟨Or.inr rfl, .nil⟩)
  · refine chained_field.mpr (chained_group.mpr ⟨.cons_cons ?_ (.singleton _), ?_⟩)
    · exact fun i hi => Option.some.inj hi ▸ List.mem_singleton_self _
    · exact fun _ _ hi => absurd hi List.not_mem_nil

end Sample

end ZroServices.Tradair
