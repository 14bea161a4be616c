import Mathlib.Data.List.Infix
import ZroServices.Tradair.FixMessages

/-!
# Tradair — parsing the tokens of a body

The parser takes the tokens of a body one by one, and the body that was built is compared with it
key by key: what it has after some of the tokens stays at the front of what it has at the end
(`getStructureValue_prefix`).  An entry of a group ends at a token whose field it has already, or
with the message (`Stops`); any other token is taken into it or is an error.

`getStructureValue_body` says which bodies are read back as they were, when no group of theirs has
groups.  Enough fuel is the number of tokens (`getStructureValue_fuel`).
-/

namespace ZroServices.Tradair

open Foundation FixParser

variable {ν : Type} {js : Numbers ν} {m : FixModel} {S : FixStructure} {fuel : ℕ}
  {message body : List (Item ν)} {t : FixToken} {ts rest : List FixToken}

/-! ### One token -/

/-- How a structure goes on after the token `t` of the field `info` with the value `v`. -/
inductive Taken (js : Numbers ν) (m : FixModel) (fuel : ℕ) (S : FixStructure)
    (message : List (Item ν)) (t : FixToken) (ts : List FixToken) (info : FixFieldInfo)
    (v : Scalar ν) : List (Item ν) → List FixToken → Prop
  | stop (hfield : info.name ∈ S.fieldNames) (hkey : info.name ∈ keys message) :
      Taken js m fuel S message t ts info v message (t :: ts)
  | field {body : List (Item ν)} {rest : List FixToken} (hfield : info.name ∈ S.fieldNames)
      (hkey : info.name ∉ keys message)
      (h : getStructureValue js m fuel S (message ++ [.field info.name v]) ts = .ok (body, rest)) :
      Taken js m fuel S message t ts info v body rest
  | group {body : List (Item ν)} {rest : List FixToken} {group : FixGroup} {n : ℕ}
      {entries : List (List (Item ν))} {ts' : List FixToken} (hfield : info.name ∉ S.fieldNames)
      (hgroup : S.group.find? (fun group => group.name = info.name) = some group)
      (hcount : v.toNat? js = some n)
      (htimes : times (getStructureValue js m fuel group.structure []) n ts = .ok (entries, ts'))
      (h : getStructureValue js m fuel S (assign message (.group info.name entries)) ts'
        = .ok (body, rest)) :
      Taken js m fuel S message t ts info v body rest

/-- **What the parser does with a token**, when it goes on. -/
theorem getStructureValue_taken
    (h : getStructureValue js m (fuel + 1) S message (t :: ts) = .ok (body, rest)) :
    ∃ info v, m.byNumber t.tag = some info ∧ fixFieldParsers js t.value info.type = .ok v ∧
      Taken js m fuel S message t ts info v body rest := by
  rw [getStructureValue] at h
  cases hinfo : m.byNumber t.tag with
  | none => rw [hinfo] at h; cases h
  | some info =>
      rw [hinfo] at h
      obtain ⟨v, hv, h⟩ := bind_eq_ok.mp h
      refine ⟨info, v, rfl, hv, ?_⟩
      by_cases hfield : info.name ∈ S.fieldNames
      · rw [if_pos hfield] at h
        by_cases hkey : info.name ∈ keys message
        · rw [if_pos hkey] at h
          cases h
          exact .stop hfield hkey
        · rw [if_neg hkey] at h
          exact .field hfield hkey h
      · rw [if_neg hfield] at h
        cases hgroup : S.group.find? fun group => group.name = info.name with
        | none => rw [hgroup] at h; cases h
        | some group =>
            rw [hgroup] at h
            dsimp only at h
            cases hcount : v.toNat? js with
            | none => rw [hcount] at h; cases h
            | some n =>
                rw [hcount] at h
                obtain ⟨⟨entries, ts'⟩, htimes, h⟩ := bind_eq_ok.mp h
                exact .group hfield hgroup hcount htimes h

/-! ### What is left and what is kept -/

theorem times_suffix {α σ : Type} {parse : List σ → Except FixError (α × List σ)}
    (hparse : ∀ {s a s'}, parse s = .ok (a, s') → s' <:+ s) {n : ℕ} {s s' : List σ} {as : List α}
    (h : times parse n s = .ok (as, s')) : s' <:+ s := by
  induction n generalizing s as with
  | zero =>
      cases h
      exact List.suffix_refl _
  | succ n ih =>
      obtain ⟨⟨a, s₁⟩, ha, h⟩ := bind_eq_ok.mp h
      obtain ⟨⟨as', s₂⟩, has, h⟩ := bind_eq_ok.mp h
      cases h
      exact (ih has).trans (hparse ha)

/-- The tokens that are left are the last ones. -/
theorem getStructureValue_suffix
    (h : getStructureValue js m fuel S message ts = .ok (body, rest)) : rest <:+ ts := by
  induction fuel generalizing S message ts body rest with
  | zero =>
      cases ts with
      | nil => cases h; exact List.suffix_refl _
      | cons t ts => cases h
  | succ fuel ih =>
      cases ts with
      | nil => cases h; exact List.suffix_refl _
      | cons t ts =>
          obtain ⟨info, v, -, -, htaken⟩ := getStructureValue_taken h
          cases htaken with
          | stop => exact List.suffix_refl _
          | field _ _ h => exact (ih h).trans (List.suffix_cons t ts)
          | group _ _ _ htimes h =>
              exact ((ih h).trans (times_suffix (fun h => ih h) htimes)).trans (List.suffix_cons t ts)

/-- The name of a token. -/
def tokenName (m : FixModel) (t : FixToken) : Option Name := (m.byNumber t.tag).map (·.name)

/-- The names of the groups of a structure among those of tokens. -/
def groupsOf (m : FixModel) (S : FixStructure) (ts : List FixToken) : List Name :=
  (ts.filterMap (tokenName m)).filter (· ∈ S.groupNames)

theorem groupsOf_sublist {us : List FixToken} (h : us.Sublist ts) :
    (groupsOf m S us).Sublist (groupsOf m S ts) :=
  (h.filterMap _).filter _

/-- No group is there twice. -/
structure Once (m : FixModel) (S : FixStructure) (message : List (Item ν)) (ts : List FixToken) :
    Prop where
  nodup : (groupsOf m S ts).Nodup
  new : ∀ name ∈ groupsOf m S ts, name ∉ keys message

theorem Once.sublist (h : Once m S message ts) {us : List FixToken} (hsub : us.Sublist ts) :
    Once m S message us :=
  ⟨h.nodup.sublist (groupsOf_sublist hsub),
    fun name hname => h.new name ((groupsOf_sublist hsub).subset hname)⟩

theorem once_of_flat (h : S.group = []) : Once m S message ts := by
  have hnil : groupsOf m S ts = [] := by
    rw [groupsOf, List.filter_eq_nil_iff]
    intro name _
    simp [FixStructure.groupNames, h]
  exact ⟨hnil ▸ List.nodup_nil, fun name hname => absurd (hnil ▸ hname) List.not_mem_nil⟩

theorem keys_append (message : List (Item ν)) (i : Item ν) :
    keys (message ++ [i]) = keys message ++ [i.name] := by
  rw [keys, List.map_append]
  rfl

/-- The key of an item that comes after a message is new. -/
theorem new_of_nodup {i : Item ν} {is : List (Item ν)} (h : (keys (message ++ i :: is)).Nodup) :
    i.name ∉ keys message := by
  rw [keys, List.map_append] at h
  exact fun hmem => (List.nodup_append.mp h).2.2 _ hmem _ List.mem_cons_self rfl

theorem assign_new {i : Item ν} (h : i.name ∉ keys message) : assign message i = message ++ [i] :=
  if_neg h

/-- **What a message has stays at its front**, when no group comes twice. -/
theorem getStructureValue_prefix (hdisjoint : S.fieldNames.Disjoint S.groupNames)
    (honce : Once m S message ts)
    (h : getStructureValue js m fuel S message ts = .ok (body, rest)) : message <+: body := by
  induction fuel generalizing message ts with
  | zero =>
      cases ts with
      | nil => cases h; exact List.prefix_refl _
      | cons t ts => cases h
  | succ fuel ih =>
      cases ts with
      | nil => cases h; exact List.prefix_refl _
      | cons t ts =>
          obtain ⟨info, v, hinfo, -, htaken⟩ := getStructureValue_taken h
          have htail := honce.sublist (List.sublist_cons_self t ts)
          cases htaken with
          | stop => exact List.prefix_refl _
          | field hfield hkey h =>
              refine (List.prefix_append _ _).trans (ih ⟨htail.nodup, fun name hname => ?_⟩ h)
              rw [keys_append, List.mem_append, not_or]
              refine ⟨htail.new name hname, fun hmem => ?_⟩
              obtain rfl : name = info.name := List.mem_singleton.mp hmem
              exact hdisjoint hfield (of_decide_eq_true (List.mem_filter.mp hname).2)
          | @group _ _ group n entries ts' hfield hgroup hcount htimes h =>
              have hin : info.name ∈ S.groupNames := by
                have hname : group.name = info.name := by simpa using List.find?_some hgroup
                exact hname ▸ List.mem_map_of_mem (List.mem_of_find?_eq_some hgroup)
              have hcons : groupsOf m S (t :: ts) = info.name :: groupsOf m S ts := by
                have hsome : tokenName m t = some info.name := by rw [tokenName, hinfo]; rfl
                rw [groupsOf, List.filterMap_cons_some hsome,
                  List.filter_cons_of_pos (by simpa using hin)]
                rfl
              have hnew : info.name ∉ keys message :=
                honce.new _ (hcons ▸ List.mem_cons_self)
              have hsub : ts'.Sublist ts :=
                (times_suffix (fun h => getStructureValue_suffix h) htimes).sublist
              have hnodup := honce.nodup
              rw [hcons, List.nodup_cons] at hnodup
              have hrest := htail.sublist hsub
              rw [assign_new hnew] at h
              refine (List.prefix_append _ _).trans (ih ⟨hrest.nodup, fun name hname => ?_⟩ h)
              rw [keys_append, List.mem_append, not_or]
              refine ⟨hrest.new name hname, fun hmem => ?_⟩
              obtain rfl : name = info.name := List.mem_singleton.mp hmem
              exact hnodup.1 ((groupsOf_sublist hsub).subset hname)

/-- Code that is run many times ends out of fuel only where one run of it does. -/
theorem times_outOfFuel {α σ : Type} {parse : List σ → Except FixError (α × List σ)}
    (hparse : ∀ {s a s'}, parse s = .ok (a, s') → s' <:+ s) {n : ℕ} {s : List σ}
    (h : times parse n s = .error .outOfFuel) :
    ∃ s', s' <:+ s ∧ parse s' = .error .outOfFuel := by
  induction n generalizing s with
  | zero => cases h
  | succ n ih =>
      rcases bind_eq_error.mp h with hone | ⟨⟨a, s₁⟩, ha, h⟩
      · exact ⟨s, List.suffix_refl s, hone⟩
      · rcases bind_eq_error.mp h with hmany | ⟨_, _, h⟩
        · obtain ⟨s', hs', h'⟩ := ih hmany
          exact ⟨s', hs'.trans (hparse ha), h'⟩
        · cases h

theorem fixFieldParsers_fuel {x : Option Text} {type : FieldType} :
    fixFieldParsers js x type ≠ .error .outOfFuel := by
  cases type <;> exact fun h => nomatch h

/-- **As much fuel as there are tokens is enough.** -/
theorem getStructureValue_fuel (hfuel : ts.length ≤ fuel) :
    getStructureValue js m fuel S message ts ≠ .error .outOfFuel := by
  induction fuel generalizing S message ts with
  | zero =>
      obtain rfl := List.length_eq_zero_iff.mp (Nat.le_zero.mp hfuel)
      exact fun h => nomatch h
  | succ fuel ih =>
      cases ts with
      | nil => exact fun h => nomatch h
      | cons t ts =>
          have hts : ts.length ≤ fuel := Nat.le_of_succ_le_succ hfuel
          intro h
          rw [getStructureValue] at h
          cases hinfo : m.byNumber t.tag with
          | none => rw [hinfo] at h; cases h
          | some info =>
              rw [hinfo] at h
              rcases bind_eq_error.mp h with h | ⟨v, -, h⟩
              · exact fixFieldParsers_fuel h
              · by_cases hfield : info.name ∈ S.fieldNames
                · rw [if_pos hfield] at h
                  split at h
                  · cases h
                  · exact ih hts h
                · rw [if_neg hfield] at h
                  cases hgroup : S.group.find? fun group => group.name = info.name with
                  | none => rw [hgroup] at h; cases h
                  | some group =>
                      rw [hgroup] at h
                      dsimp only at h
                      cases hcount : v.toNat? js with
                      | none => rw [hcount] at h; cases h
                      | some n =>
                          rw [hcount] at h
                          rcases bind_eq_error.mp h with h | ⟨⟨entries, ts'⟩, htimes, h⟩
                          · obtain ⟨s', hs', h'⟩ :=
                              times_outOfFuel (fun h => getStructureValue_suffix h) h
                            exact ih (hs'.length_le.trans hts) h'
                          · have hsuffix :=
                              times_suffix (fun h => getStructureValue_suffix h) htimes
                            exact ih (hsuffix.length_le.trans hts) h

theorem getValues_fuel {ts : List FixToken} : getValues js m ts ≠ .error .outOfFuel := by
  intro h
  rcases bind_eq_error.mp h with h | ⟨values, -, h⟩
  · clear * - h
    induction ts with
    | nil => cases h
    | cons t ts ih =>
        rw [List.mapM_cons] at h
        rcases bind_eq_error.mp h with h | ⟨v, -, h⟩
        · rw [getValue] at h
          split at h
          · cases h
          · rcases bind_eq_error.mp h with h | ⟨v, -, h⟩
            · exact fixFieldParsers_fuel h
            · cases h
        · rcases bind_eq_error.mp h with h | ⟨vs, -, h⟩
          · exact ih h
          · cases h
  · cases h

/-! ### Reading a token back -/

/-- What a token is read as. -/
def readToken (t : Text × Text) : FixToken := ⟨t.1, some (cut t.2)⟩

section

variable {name : Name} {v : Scalar ν} {info : FixFieldInfo}

theorem byNumber_readToken (hm : m.WellFormed) (h : m.byName name = some info) (value : Text) :
    m.byNumber (readToken (tagOf m name, value)).tag = some info := by
  rw [readToken, tagOf_eq h]
  exact byNumber_eq hm h

/-- A field is taken when its key is new. -/
theorem getStructureValue_field (hm : m.WellFormed) (h : Plain js m S name v info)
    (hnew : name ∉ keys message) (fuel : ℕ) (ts : List FixToken) :
    getStructureValue js m (fuel + 1) S message (readToken (headToken js m (.field name v)) :: ts)
      = getStructureValue js m fuel S (message ++ [.field name (readBack v)]) ts := by
  obtain ⟨-, rfl⟩ := byName_spec h.known
  have hvalue : fixFieldParsers js (readToken (headToken js m (.field info.name v))).value info.type
      = .ok (readBack v) := (parse_built js h.accepts.takes).2
  rw [getStructureValue, headToken, byNumber_readToken hm h.known]
  dsimp only
  rw [headToken] at hvalue
  rw [hvalue]
  exact (if_pos h.mem).trans (if_neg hnew)

/-- A field is read back when its value is, and what follows is. -/
theorem field_readBack (hm : m.WellFormed) (hdisjoint : S.fieldNames.Disjoint S.groupNames)
    (h : Plain js m S name v info) (hnew : name ∉ keys message) {is : List (Item ν)}
    (honce : ∀ x : Item ν, x.name = name → Once m S (message ++ [x]) ts) :
    getStructureValue js m (fuel + 1) S message (readToken (headToken js m (.field name v)) :: ts)
        = .ok (message ++ .field name v :: is, rest) ↔
      readBack v = v ∧ getStructureValue js m fuel S (message ++ [.field name v]) ts
        = .ok ((message ++ [.field name v]) ++ is, rest) := by
  rw [getStructureValue_field hm h hnew, List.append_cons message (.field name v) is]
  by_cases hv : readBack v = v
  · rw [hv]
    exact (and_iff_right rfl).symm
  · refine iff_of_false (fun h => hv ?_) fun h => hv h.1
    have hprefix := getStructureValue_prefix hdisjoint (honce (.field name (readBack v)) rfl) h
    rw [List.append_assoc, List.prefix_append_right_inj, List.singleton_append,
      List.cons_prefix_cons] at hprefix
    exact (Item.field.inj hprefix.1).2

end

variable {es : List (List (Item ν))} {group : FixGroup}
variable {name : Name} {info : FixFieldInfo} {is : List (Item ν)}

/-- An entry ends here: with the message, or at a field that it has already. -/
def Stops (m : FixModel) (S : FixStructure) (message : List (Item ν)) (ts : List FixToken) : Prop :=
  ∀ t ∈ ts.head?, ∃ info, m.byNumber t.tag = some info ∧ info.name ∈ S.fieldNames ∧
    info.name ∈ keys message

/-- The token is of a field and has a value of it. -/
def Known (js : Numbers ν) (m : FixModel) (t : FixToken) : Prop :=
  ∃ info v, m.byNumber t.tag = some info ∧ fixFieldParsers js t.value info.type = .ok v

/-- Where a structure without groups ends with what it has. -/
theorem getStructureValue_stops (hflat : S.group = []) (hfuel : ts.length ≤ fuel)
    (hknown : ∀ t ∈ ts.head?, Known js m t) :
    getStructureValue js m fuel S message ts = .ok (message, rest) ↔
      rest = ts ∧ Stops m S message ts := by
  cases ts with
  | nil =>
      have hnil : getStructureValue js m fuel S message [] = .ok (message, []) := by
        cases fuel <;> rfl
      rw [hnil]
      constructor
      · intro h
        cases h
        exact ⟨rfl, fun t ht => nomatch ht⟩
      · rintro ⟨rfl, -⟩
        rfl
  | cons t ts =>
      obtain ⟨fuel, rfl⟩ := Nat.exists_eq_succ_of_ne_zero (Nat.ne_zero_of_lt hfuel)
      constructor
      · intro h
        obtain ⟨info, v, hinfo, -, htaken⟩ := getStructureValue_taken h
        cases htaken with
        | stop hfield hkey =>
            refine ⟨rfl, fun t' ht' => ?_⟩
            obtain rfl := Option.some.inj ht'
            exact ⟨info, hinfo, hfield, hkey⟩
        | field hfield hkey h =>
            have hdisjoint : S.fieldNames.Disjoint S.groupNames := by
              simp [FixStructure.groupNames, hflat]
            have hle := ( getStructureValue_prefix hdisjoint (once_of_flat hflat) h).length_le
            rw [List.length_append, List.length_singleton] at hle
            omega
        | group _ hgroup =>
            rw [hflat] at hgroup
            cases hgroup
      · rintro ⟨rfl, hstops⟩
        obtain ⟨info, hinfo, hfield, hkey⟩ := hstops t rfl
        obtain ⟨info', v, hinfo', hv⟩ := hknown t rfl
        obtain rfl := Option.some.inj (hinfo.symm.trans hinfo')
        rw [getStructureValue, hinfo]
        dsimp only
        rw [hv]
        exact (if_pos hfield).trans (if_pos hkey)

/-- **One entry**: it is read back where it ends, when its values are and it ends there. -/
theorem getStructureValue_entry (hm : m.WellFormed) (hflat : S.group = []) {e : List (Item ν)}
    (he : ∀ i ∈ e, ∃ name v info, i = .field name v ∧ Plain js m S name v info)
    (hnodup : (keys (message ++ e)).Nodup) (hfuel : e.length + ts.length ≤ fuel)
    (hknown : ∀ t ∈ ts.head?, Known js m t) :
    getStructureValue js m fuel S message ((e.map (headToken js m)).map readToken ++ ts)
        = .ok (message ++ e, rest) ↔
      (∀ i ∈ e, ∀ name v, i = .field name v → readBack v = v) ∧ rest = ts ∧
        Stops m S (message ++ e) ts := by
  induction e generalizing message fuel with
  | nil =>
      rw [List.append_nil, List.map_nil, List.map_nil, List.nil_append,
        getStructureValue_stops hflat (by simpa using hfuel) hknown]
      exact ⟨fun h => ⟨fun i hi => absurd hi List.not_mem_nil, h⟩, fun h => h.2⟩
  | cons i e ih =>
      obtain ⟨name, v, info, rfl, hplain⟩ := he i List.mem_cons_self
      have hcons : message ++ .field name v :: e = (message ++ [.field name v]) ++ e :=
        List.append_cons _ _ _
      have hdisjoint : S.fieldNames.Disjoint S.groupNames := by
        simp [FixStructure.groupNames, hflat]
      have hpos : e.length + ts.length < fuel := by
        rw [List.length_cons] at hfuel
        omega
      obtain ⟨fuel, rfl⟩ := Nat.exists_eq_succ_of_ne_zero (Nat.ne_zero_of_lt hpos)
      rw [List.map_cons, List.map_cons, List.cons_append, field_readBack hm hdisjoint hplain
        (new_of_nodup hnodup) fun _ _ => once_of_flat hflat]
      rw [ih (fun i hi => he i (List.mem_cons_of_mem _ hi)) (hcons ▸ hnodup)
        (Nat.le_of_lt_succ hpos), ← hcons, List.forall_mem_cons, and_assoc]
      refine and_congr_left fun _ => ⟨fun h name' v' e' => ?_, fun h => h name v rfl⟩
      cases e'
      exact h

/-! ### The entries of a group -/

/-- The tokens that are read of entries. -/
def entryTokens (js : Numbers ν) (m : FixModel) (es : List (List (Item ν))) : List FixToken :=
  (es.flatMap (·.map (headToken js m))).map readToken

theorem entryTokens_cons (e : List (Item ν)) (es : List (List (Item ν))) :
    entryTokens js m (e :: es) = (e.map (headToken js m)).map readToken ++ entryTokens js m es := by
  rw [entryTokens, List.flatMap_cons, List.map_append]
  rfl

/-- The values of fields are read back. -/
def Reads (e : List (Item ν)) : Prop := ∀ i ∈ e, ∀ name v, i = .field name v → readBack v = v

/-- Every entry ends where the next one begins, and the last one before the tokens `ts`. -/
def EndsAt (js : Numbers ν) (m : FixModel) (S : FixStructure) :
    List (List (Item ν)) → List FixToken → Prop
  | [], _ => True
  | e :: es, ts => Stops m S e (entryTokens js m es ++ ts) ∧ EndsAt js m S es ts

theorem Plain.token_known (hm : m.WellFormed) {v : Scalar ν}
    (h : Plain js m S name v info) : Known js m (readToken (headToken js m (.field name v))) :=
  ⟨info, readBack v, byNumber_readToken hm h.known _, (parse_built js h.accepts.takes).2⟩

theorem Entry.token_known (hm : m.WellFormed) {e : List (Item ν)} (h : Entry js m S e) :
    ∀ t ∈ (e.map (headToken js m)).map readToken, Known js m t := by
  intro t ht
  obtain ⟨t', ht', rfl⟩ := List.mem_map.mp ht
  obtain ⟨i, hi, rfl⟩ := List.mem_map.mp ht'
  obtain ⟨name, v, info, rfl, hplain⟩ := h.plain i hi
  exact hplain.token_known hm

theorem known_entryTokens (hm : m.WellFormed)
    (hes : ∀ e ∈ es, e ≠ [] ∧ Entry js m S e) : ∀ t ∈ entryTokens js m es, Known js m t := by
  induction es with
  | nil => exact fun t ht => absurd ht List.not_mem_nil
  | cons e es ih =>
      intro t ht
      rw [entryTokens_cons] at ht
      rcases List.mem_append.mp ht with ht | ht
      · exact (hes e List.mem_cons_self).2.token_known hm t ht
      · exact ih (fun e he => hes e (List.mem_cons_of_mem _ he)) t ht

theorem head?_append {α : Type} {xs ys : List α} {x : α} (h : x ∈ (xs ++ ys).head?) :
    x ∈ xs ∨ x ∈ ys.head? := by
  cases xs with
  | nil => exact Or.inr h
  | cons y xs => exact Or.inl (Option.some.inj h ▸ List.mem_cons_self)

theorem times_succ {α σ : Type} {parse : σ → Except FixError (α × σ)} {n : ℕ} {s s' : σ} {a : α}
    {as : List α} : times parse (n + 1) s = .ok (a :: as, s') ↔
      ∃ s₁, parse s = .ok (a, s₁) ∧ times parse n s₁ = .ok (as, s') := by
  constructor
  · intro h
    obtain ⟨⟨a', s₁⟩, ha, h⟩ := bind_eq_ok.mp h
    obtain ⟨⟨as', s₂⟩, has, h⟩ := bind_eq_ok.mp h
    cases h
    exact ⟨s₁, ha, has⟩
  · rintro ⟨s₁, ha, has⟩
    exact bind_eq_ok.mpr ⟨(a, s₁), ha, bind_eq_ok.mpr ⟨(as, s'), has, rfl⟩⟩

/-- **The entries of a group** are read back when their values are and each ends where the next one
begins. -/
theorem times_entries (hm : m.WellFormed) (hflat : S.group = [])
    (hes : ∀ e ∈ es, e ≠ [] ∧ Entry js m S e)
    (hfuel : (entryTokens js m es).length + ts.length ≤ fuel)
    (hknown : ∀ t ∈ ts.head?, Known js m t) :
    times (getStructureValue js m fuel S []) es.length (entryTokens js m es ++ ts) = .ok (es, rest) ↔
      (∀ e ∈ es, Reads e) ∧ rest = ts ∧ EndsAt js m S es ts := by
  induction es with
  | nil =>
      constructor
      · intro h
        cases h
        exact ⟨fun e he => absurd he List.not_mem_nil, rfl, trivial⟩
      · rintro ⟨-, rfl, -⟩
        rfl
  | cons e es ih =>
      have hrest : ∀ e ∈ es, e ≠ [] ∧ Entry js m S e := fun e he => hes e (List.mem_cons_of_mem _ he)
      obtain ⟨-, hentry⟩ := hes e List.mem_cons_self
      rw [entryTokens_cons, List.length_append, List.length_map, List.length_map] at hfuel
      have hnext : ∀ t ∈ (entryTokens js m es ++ ts).head?, Known js m t := fun t ht =>
        (head?_append ht).elim (known_entryTokens hm hrest t) (hknown t)
      have hone : ∀ s₁, getStructureValue js m fuel S []
            ((e.map (headToken js m)).map readToken ++ (entryTokens js m es ++ ts)) = .ok (e, s₁) ↔
          Reads e ∧ s₁ = entryTokens js m es ++ ts ∧ Stops m S e (entryTokens js m es ++ ts) :=
        fun s₁ => getStructureValue_entry hm hflat hentry.plain hentry.nodup
          (by rw [List.length_append]; omega) hnext
      have hmany := ih hrest (by omega)
      rw [List.length_cons, times_succ, entryTokens_cons, List.append_assoc]
      constructor
      · rintro ⟨s₁, h, htimes⟩
        obtain ⟨hreads, rfl, hstops⟩ := (hone s₁).mp h
        obtain ⟨hreads', rfl, hends⟩ := hmany.mp htimes
        exact ⟨List.forall_mem_cons.mpr ⟨hreads, hreads'⟩, rfl, hstops, hends⟩
      · rintro ⟨hreads, rfl, hstops, hends⟩
        obtain ⟨hreads, hreads'⟩ := List.forall_mem_cons.mp hreads
        exact ⟨_, (hone _).mpr ⟨hreads, rfl, hstops⟩, hmany.mpr ⟨hreads', rfl, hends⟩⟩

/-! ### The body -/

/-- The tokens that are read of a body. -/
def bodyTokens (js : Numbers ν) (m : FixModel) (body : List (Item ν)) : List FixToken :=
  (body.flatMap (itemTokens js m)).map readToken

theorem bodyTokens_field (name : Name) (v : Scalar ν) (is : List (Item ν)) :
    bodyTokens js m (.field name v :: is)
      = readToken (headToken js m (.field name v)) :: bodyTokens js m is := rfl

theorem bodyTokens_group (name : Name) (es : List (List (Item ν))) (is : List (Item ν)) :
    bodyTokens js m (.group name es :: is)
      = readToken (headToken js m (.group name es)) ::
          (entryTokens js m es ++ bodyTokens js m is) := by
  rw [bodyTokens, List.flatMap_cons, List.map_append]
  rfl

/-- The structure has no name of a field for a group, and none of its names within a group. -/
structure Apart (S : FixStructure) : Prop where
  fields : S.fieldNames.Disjoint S.groupNames
  levels : ∀ group ∈ S.group, S.names.Disjoint group.innerNames

theorem fieldNames_inner (h : name ∈ group.structure.fieldNames) : name ∈ group.innerNames := by
  cases group with
  | mk _ field groups => exact List.mem_append_left _ h

theorem tokenName_readToken (hm : m.WellFormed) (h : m.byName name = some info) (value : Text) :
    tokenName m (readToken (tagOf m name, value)) = some name := by
  rw [tokenName, byNumber_readToken hm h]
  exact congrArg some (byName_spec h).2

/-- The names of the tokens of entries are not those of the structure they are in. -/
theorem groupsOf_entryTokens (hm : m.WellFormed) (hapart : Apart S) (hgroup : group ∈ S.group)
    (hes : ∀ e ∈ es, e ≠ [] ∧ Entry js m group.structure e) (ts : List FixToken) :
    groupsOf m S (entryTokens js m es ++ ts) = groupsOf m S ts := by
  have hnil : groupsOf m S (entryTokens js m es) = [] := by
    rw [groupsOf, List.filter_eq_nil_iff]
    intro name hname hin
    obtain ⟨t, ht, e⟩ := List.mem_filterMap.mp hname
    obtain ⟨t', ht', rfl⟩ := List.mem_map.mp ht
    obtain ⟨entry, hentry, ht'⟩ := List.mem_flatMap.mp ht'
    obtain ⟨i, hi, rfl⟩ := List.mem_map.mp ht'
    obtain ⟨name', v, info, rfl, hplain⟩ := (hes entry hentry).2.plain i hi
    obtain rfl := Option.some.inj ((tokenName_readToken hm hplain.known _).symm.trans e)
    exact hapart.levels group hgroup (List.mem_append_right _ (of_decide_eq_true hin))
      (fieldNames_inner hplain.mem)
  have happend : groupsOf m S (entryTokens js m es ++ ts)
      = groupsOf m S (entryTokens js m es) ++ groupsOf m S ts := by
    rw [groupsOf, List.filterMap_append, List.filter_append]
    rfl
  rw [happend, hnil, List.nil_append]

theorem Once.entries (h : Once m S message ts) (hm : m.WellFormed) (hapart : Apart S)
    (hgroup : group ∈ S.group)
    (hes : ∀ e ∈ es, e ≠ [] ∧ Entry js m group.structure e) :
    Once m S message (entryTokens js m es ++ ts) := by
  have hgroups := groupsOf_entryTokens hm hapart hgroup hes ts
  exact ⟨hgroups ▸ h.nodup, hgroups ▸ h.new⟩

/-- The groups of the tokens of a body are those of its keys. -/
theorem groupsOf_bodyTokens (hm : m.WellFormed) (hapart : Apart S) {body : List (Item ν)}
    (hbody : ∀ i ∈ body, Shallow js m S i) :
    groupsOf m S (bodyTokens js m body) = (keys body).filter (· ∈ S.groupNames) := by
  induction body with
  | nil => rfl
  | cons i body ih =>
      have hrest := ih fun i hi => hbody i (List.mem_cons_of_mem _ hi)
      have hcons : ∀ (name : Name) (value : Text) (info : FixFieldInfo) (ts : List FixToken),
          m.byName name = some info → groupsOf m S (readToken (tagOf m name, value) :: ts)
            = [name].filter (· ∈ S.groupNames) ++ groupsOf m S ts := by
        intro name value info ts hinfo
        rw [groupsOf, List.filterMap_cons_some (tokenName_readToken hm hinfo value),
          ← List.singleton_append, List.filter_append]
        rfl
      have hkeys : (keys (i :: body)).filter (· ∈ S.groupNames)
          = [i.name].filter (· ∈ S.groupNames) ++ (keys body).filter (· ∈ S.groupNames) :=
        List.filter_append [i.name] (keys body)
      rw [hkeys]
      cases hbody i List.mem_cons_self with
      | field h =>
          rw [bodyTokens_field, headToken, hcons _ _ _ _ h.known, hrest]
          rfl
      | group hname hinfo hnumeric hgroup hflat hentries =>
          rw [bodyTokens_group, headToken, hcons _ _ _ _ hinfo,
            groupsOf_entryTokens hm hapart (List.mem_of_find?_eq_some hgroup) hentries, hrest]
          rfl

/-- The count of a group is read. -/
theorem parse_count (js : Numbers ν) {type : FieldType} (h : type.Numeric) (n : ℕ) :
    ∃ v : Scalar ν, fixFieldParsers js (some (cut (Nat.toDigits 10 n))) type = .ok v ∧
      v.toNat? js = some n := by
  rw [cut_eq.mpr (not_mem_toDigits rfl n)]
  have hnumber : (Scalar.number (js.parseFloat (Nat.toDigits 10 n))).toNat? js = some n :=
    js.toNat?_parseFloat n
  have hint : parseInt (Nat.toDigits 10 n) = some (n : ℤ) := parseInt_intText n
  simp only [FieldType.Numeric, List.mem_cons, List.not_mem_nil, or_false] at h
  rcases h with rfl | rfl | rfl | rfl | rfl
  · exact ⟨_, rfl, hnumber⟩
  · refine ⟨.int (some (n : ℤ)), ?_, rfl⟩
    exact congrArg (fun i => Except.ok (Scalar.int i)) hint
  · exact ⟨_, rfl, hnumber⟩
  · exact ⟨_, rfl, hnumber⟩
  · exact ⟨_, rfl, hnumber⟩

section

variable (hm : m.WellFormed)
include hm

theorem Shallow.token_known {i : Item ν} (h : Shallow js m S i) :
    Known js m (readToken (headToken js m i)) := by
  cases h with
  | field h => exact h.token_known hm
  | group _ hinfo hnumeric _ _ _ =>
      obtain ⟨v, hv, -⟩ := parse_count js hnumeric _
      exact ⟨_, v, byNumber_readToken hm hinfo _, hv⟩

/-- A group is taken with its entries. -/
theorem getStructureValue_group (hname : name ∉ S.fieldNames)
    (hinfo : m.byName name = some info) (hnumeric : info.type.Numeric)
    (hgroup : S.group.find? (fun group => group.name = name) = some group) (fuel : ℕ)
    (ts : List FixToken) :
    getStructureValue js m (fuel + 1) S message (readToken (headToken js m (.group name es)) :: ts)
      = (do
          let (entries, ts') ← times (getStructureValue js m fuel group.structure []) es.length ts
          getStructureValue js m fuel S (assign message (.group name entries)) ts') := by
  obtain ⟨-, rfl⟩ := byName_spec hinfo
  obtain ⟨v, hv, hcount⟩ := parse_count js hnumeric es.length
  rw [getStructureValue, headToken, byNumber_readToken hm hinfo]
  dsimp only
  rw [readToken, hv]
  refine (if_neg hname).trans ?_
  rw [hgroup]
  dsimp only
  rw [hcount]

theorem known_bodyTokens
    (his : ∀ i ∈ is, Shallow js m S i) : ∀ t ∈ (bodyTokens js m is).head?, Known js m t := by
  intro t ht
  cases is with
  | nil => cases ht
  | cons i is =>
      have hhead : (bodyTokens js m (i :: is)).head? = some (readToken (headToken js m i)) := by
        cases i <;> rfl
      obtain rfl := Option.some.inj (hhead.symm.trans ht)
      exact (his i List.mem_cons_self).token_known hm

/-- A group is read back when its entries are, and what follows is. -/
theorem group_readBack (hdisjoint : S.fieldNames.Disjoint S.groupNames)
    (hname : name ∉ S.fieldNames) (hinfo : m.byName name = some info)
    (hnumeric : info.type.Numeric)
    (hgroup : S.group.find? (fun group => group.name = name) = some group)
    (hnew : name ∉ keys message) (hflat : group.structure.group = [])
    (hentries : ∀ e ∈ es, e ≠ [] ∧ Entry js m group.structure e)
    (hfuel : (entryTokens js m es).length + ts.length ≤ fuel)
    (hknown : ∀ t ∈ ts.head?, Known js m t)
    (honce : ∀ x : Item ν, x.name = name → Once m S (message ++ [x]) (entryTokens js m es ++ ts)) :
    getStructureValue js m (fuel + 1) S message
          (readToken (headToken js m (.group name es)) :: (entryTokens js m es ++ ts))
        = .ok (message ++ .group name es :: is, rest) ↔
      ((∀ e ∈ es, Reads e) ∧ EndsAt js m group.structure es ts) ∧
        getStructureValue js m fuel S (message ++ [.group name es]) ts
          = .ok ((message ++ [.group name es]) ++ is, rest) := by
  rw [getStructureValue_group hm hname hinfo hnumeric hgroup, List.append_cons]
  constructor
  · intro hrun
    obtain ⟨⟨entries, ts'⟩, htimes, h⟩ := bind_eq_ok.mp hrun
    have hassign : assign message (.group name entries) = message ++ [.group name entries] :=
      assign_new hnew
    have hsuffix : ts' <:+ entryTokens js m es ++ ts :=
      times_suffix (fun h => getStructureValue_suffix h) htimes
    dsimp only at h
    rw [hassign] at h
    have hprefix := getStructureValue_prefix hdisjoint
      ((honce (.group name entries) rfl).sublist hsuffix.sublist) h
    rw [List.append_assoc, List.prefix_append_right_inj, List.singleton_append,
      List.cons_prefix_cons] at hprefix
    obtain ⟨-, rfl⟩ := Item.group.inj hprefix.1
    obtain ⟨hreads, rfl, hends⟩ := (times_entries hm hflat hentries hfuel hknown).mp htimes
    exact ⟨⟨hreads, hends⟩, h⟩
  · rintro ⟨⟨hreads, hends⟩, h⟩
    refine bind_eq_ok.mpr ⟨(es, ts), (times_entries hm hflat hentries hfuel hknown).mpr
      ⟨hreads, rfl, hends⟩, ?_⟩
    dsimp only
    rw [assign_new (i := .group name es) hnew]
    exact h

/-- No group comes twice in a body whose keys are new. -/
theorem once_bodyTokens (hapart : Apart S)
    (his : ∀ i ∈ is, Shallow js m S i) (hnodup : (keys message ++ keys is).Nodup) :
    Once m S message (bodyTokens js m is) := by
  obtain ⟨-, hkeys, hdisjoint⟩ := List.nodup_append.mp hnodup
  refine ⟨?_, fun name hname hmem => ?_⟩
  · rw [groupsOf_bodyTokens hm hapart his]
    exact hkeys.filter _
  · rw [groupsOf_bodyTokens hm hapart his] at hname
    exact hdisjoint name hmem name (List.mem_filter.mp hname).1 rfl

end

/-- What it takes for a body to be read back. -/
def BodyReads (js : Numbers ν) (m : FixModel) (S : FixStructure) : List (Item ν) → Prop
  | [] => True
  | .field _ v :: is => readBack v = v ∧ BodyReads js m S is
  | .group name es :: is =>
      ((∀ e ∈ es, Reads e) ∧ ∀ group, S.group.find? (fun group => group.name = name) = some group →
        EndsAt js m group.structure es (bodyTokens js m is)) ∧ BodyReads js m S is

/-- **The body** is read back when its values are and every entry ends where it does. -/
theorem getStructureValue_body (hm : m.WellFormed) (hapart : Apart S)
    (hbody : ∀ i ∈ body, Shallow js m S i) (hnodup : (keys (message ++ body)).Nodup)
    (hfuel : (bodyTokens js m body).length ≤ fuel) :
    getStructureValue js m fuel S message (bodyTokens js m body) = .ok (message ++ body, rest) ↔
      rest = [] ∧ BodyReads js m S body := by
  induction body generalizing message fuel with
  | nil =>
      have hnil : getStructureValue js m fuel S message (bodyTokens js m []) = .ok (message, []) := by
        cases fuel <;> rfl
      rw [hnil, List.append_nil]
      constructor
      · intro h
        cases h
        exact ⟨rfl, trivial⟩
      · rintro ⟨rfl, -⟩
        rfl
  | cons i is ih =>
      have his : ∀ i ∈ is, Shallow js m S i := fun i hi => hbody i (List.mem_cons_of_mem _ hi)
      have hnew := new_of_nodup hnodup
      -- Whatever is read of the item, it has its name.
      have hkeys : ∀ x : Item ν, x.name = i.name →
          (keys ((message ++ [x]) ++ is)).Nodup := by
        intro x hx
        rw [keys, List.map_append, List.map_cons] at hnodup
        rw [keys, List.append_assoc, List.singleton_append, List.map_append, List.map_cons, hx]
        exact hnodup
      have honce : ∀ x : Item ν, x.name = i.name → Once m S (message ++ [x]) (bodyTokens js m is) := by
        intro x hx
        have hnodup' := hkeys x hx
        rw [keys, List.map_append] at hnodup'
        exact once_bodyTokens hm hapart his hnodup'
      have hcons : message ++ i :: is = (message ++ [i]) ++ is := List.append_cons _ _ _
      cases hbody i List.mem_cons_self with
      | @field name v info hplain =>
          rw [bodyTokens_field] at hfuel ⊢
          obtain ⟨fuel, rfl⟩ := Nat.exists_eq_succ_of_ne_zero (Nat.ne_zero_of_lt hfuel)
          rw [field_readBack hm hapart.fields hplain hnew honce,
            ih his (hkeys _ rfl) (Nat.le_of_succ_le_succ hfuel), BodyReads]
          exact and_left_comm
      | @group name es info group hname hinfo hnumeric hgroup hflat hentries =>
          rw [bodyTokens_group] at hfuel ⊢
          obtain ⟨fuel, rfl⟩ := Nat.exists_eq_succ_of_ne_zero (Nat.ne_zero_of_lt hfuel)
          have hlength := Nat.le_of_succ_le_succ hfuel
          rw [List.length_append] at hlength
          have hmem := List.mem_of_find?_eq_some hgroup
          rw [group_readBack hm hapart.fields hname hinfo hnumeric hgroup hnew hflat hentries hlength
            (known_bodyTokens hm his) fun x hx => (honce x hx).entries hm hapart hmem hentries,
            ih his (hkeys _ rfl) (by omega), BodyReads]
          have hends : (∀ group', S.group.find? (fun group => group.name = name) = some group' →
              EndsAt js m group'.structure es (bodyTokens js m is)) ↔
                EndsAt js m group.structure es (bodyTokens js m is) := by
            simp [hgroup]
          rw [hends]
          exact and_left_comm

end ZroServices.Tradair
