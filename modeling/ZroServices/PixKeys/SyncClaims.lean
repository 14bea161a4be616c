import ZroServices.PixKeys.Domain

/-!
# PIX keys — the claims of the PSP

`SyncGetAllPixKeyClaimPixKeyUseCase` asks the PSP for the claims of the last days, a page of them,
and stores what is new or has changed.  While the PSP has more, it asks again.  The request does not
change, and neither does the answer.

The job ends, with every claim stored, exactly when the claims fit into one page (`synced_iff`).
-/

namespace ZroServices.PixKeys.SyncClaims

open Foundation

inductive ClaimStatusType where
  | OPEN
  | WAITING_RESOLUTION
  | CONFIRMED
  | CANCELLED
  | COMPLETED
  deriving DecidableEq, Repr

inductive ClaimType where
  | OWNERSHIP
  | PORTABILITY
  deriving DecidableEq, Repr

structure GetClaimPixKeyPspRequest where
  ispb : String
  limit : ℕ
  lastChangeDateStart : ℤ
  lastChangeDateEnd : ℤ

structure GetClaimPixKeyPspResponseItem where
  id : Uuid
  type : ClaimType
  key : String
  keyType : KeyType
  ispb : String
  branch : Option String
  accountNumber : Option String
  personType : Option PersonType
  document : Option String
  finalResolutionDate : Option ℤ
  finalCompleteDate : Option ℤ
  lastChangeDate : Option ℤ
  status : ClaimStatusType
  deriving DecidableEq, Repr

structure GetClaimPixKeyPspResponse where
  hasMoreElements : Bool
  claims : List GetClaimPixKeyPspResponseItem

/-- A claim as it is stored.  Neither of its own dates is the PSP's. -/
structure ClaimRow extends GetClaimPixKeyPspResponseItem where
  claimOpeningDate : Option ℤ
  claimClosingDate : Option ℤ
  deriving DecidableEq, Repr

instance : Keyed GetClaimPixKeyPspResponseItem Uuid := ⟨GetClaimPixKeyPspResponseItem.id⟩

instance : Keyed ClaimRow Uuid := ⟨fun row => row.id⟩

structure PixKeyClaimEvent where
  id : Uuid
  key : String
  type : ClaimType
  status : ClaimStatusType
  deriving DecidableEq, Repr

structure Config where
  ispb : String
  pageSize : ℕ
  limitDay : ℕ

structure World where
  claims : Table ClaimRow
  /-- The ready events that were emitted. -/
  ready : List PixKeyClaimEvent

/-! ### The PSP -/

/-- The claims of the PSP that changed within the dates of a request, in its order. -/
def window (psp : Table GetClaimPixKeyPspResponseItem) (body : GetClaimPixKeyPspRequest) :
    List GetClaimPixKeyPspResponseItem :=
  psp.rows.filter fun claim => ∃ date ∈ claim.lastChangeDate,
    body.lastChangeDateStart ≤ date ∧ date ≤ body.lastChangeDateEnd

/-- `pspGateway.getClaimPixKey`. -/
def getClaimPixKey (psp : Table GetClaimPixKeyPspResponseItem) (body : GetClaimPixKeyPspRequest) :
    GetClaimPixKeyPspResponse where
  hasMoreElements := body.limit < (window psp body).length
  claims := (window psp body).take body.limit

/-! ### The job -/

/-- `PixKeyClaimRepository.create`. -/
def GetClaimPixKeyPspResponseItem.created (claim : GetClaimPixKeyPspResponseItem) : ClaimRow where
  toGetClaimPixKeyPspResponseItem := claim
  claimOpeningDate := none
  claimClosingDate := none

/-- `PixKeyClaimRepository.update`: a field that the PSP leaves out is not written. -/
def GetClaimPixKeyPspResponseItem.updated (claim : GetClaimPixKeyPspResponseItem)
    (row : ClaimRow) : ClaimRow where
  id := claim.id
  type := claim.type
  key := claim.key
  keyType := claim.keyType
  ispb := claim.ispb
  branch := claim.branch.or row.branch
  accountNumber := claim.accountNumber.or row.accountNumber
  personType := claim.personType.or row.personType
  document := claim.document.or row.document
  finalResolutionDate := claim.finalResolutionDate.or row.finalResolutionDate
  finalCompleteDate := claim.finalCompleteDate.or row.finalCompleteDate
  lastChangeDate := claim.lastChangeDate.or row.lastChangeDate
  status := claim.status
  claimOpeningDate := row.claimOpeningDate
  claimClosingDate := row.claimClosingDate

/-- `readyPixKeyClaim`. -/
def GetClaimPixKeyPspResponseItem.readyPixKeyClaim (claim : GetClaimPixKeyPspResponseItem) :
    PixKeyClaimEvent :=
  ⟨claim.id, claim.key, claim.type, claim.status⟩

/-- One round of the loop over a page. -/
def syncClaim (w : World) (claim : GetClaimPixKeyPspResponseItem) : World :=
  match w.claims.get? claim.id with
  | none => ⟨w.claims.upsert claim.created, w.ready ++ [claim.readyPixKeyClaim]⟩
  | some row =>
      if row.status = claim.status then w
      else ⟨w.claims.set (claim.updated row), w.ready ++ [claim.readyPixKeyClaim]⟩

/-- The body of the request, which is made once. -/
def requestBody (config : Config) (now : ℤ) : GetClaimPixKeyPspRequest where
  ispb := config.ispb
  limit := config.pageSize
  lastChangeDateStart := now - config.limitDay * msPerDay
  lastChangeDateEnd := now

/-- The loop, for as many rounds as there is fuel. -/
def syncPages (getClaimPixKey : GetClaimPixKeyPspRequest → GetClaimPixKeyPspResponse)
    (body : GetClaimPixKeyPspRequest) : ℕ → World → Option World
  | 0, _ => none
  | fuel + 1, w =>
      let pixKeyClaimsFound := getClaimPixKey body
      let w := pixKeyClaimsFound.claims.foldl syncClaim w
      if pixKeyClaimsFound.hasMoreElements then syncPages getClaimPixKey body fuel w else some w

/-- `SyncGetAllPixKeyClaimPixKeyUseCase.execute`. -/
def execute (config : Config) (psp : Table GetClaimPixKeyPspResponseItem) (now : ℤ) (fuel : ℕ)
    (w : World) : Option World :=
  syncPages (getClaimPixKey psp) (requestBody config now) fuel w

/-! ### What a page leaves -/

/-- A claim is not stored, or with another status. -/
def World.Differs (w : World) (claim : GetClaimPixKeyPspResponseItem) : Prop :=
  (w.claims.get? claim.id).map (·.status) ≠ some claim.status

instance (w : World) : DecidablePred w.Differs := fun _ => inferInstanceAs (Decidable (_ ≠ _))

/-- Claims are stored with their status, and an event was emitted for each that was not. -/
structure Synced (w w' : World) (claims : List GetClaimPixKeyPspResponseItem) : Prop where
  stored : ∀ claim ∈ claims, ∃ row, w'.claims.get? claim.id = some row ∧ row.status = claim.status
  ready : w'.ready = w.ready ++ (claims.filter w.Differs).map (·.readyPixKeyClaim)

variable {config : Config} {psp : Table GetClaimPixKeyPspResponseItem} {now : ℤ} {w w' : World}
  {body : GetClaimPixKeyPspRequest} {claims : List GetClaimPixKeyPspResponseItem}

theorem get?_syncClaim (w : World) (claim : GetClaimPixKeyPspResponseItem) :
    ∃ row, (syncClaim w claim).claims.get? claim.id = some row ∧ row.status = claim.status := by
  rw [syncClaim]
  cases hrow : w.claims.get? claim.id with
  | none => exact ⟨claim.created, Table.get?_upsert_self, rfl⟩
  | some row =>
      dsimp only
      split_ifs with hstatus
      · exact ⟨row, hrow, hstatus⟩
      · exact ⟨claim.updated row, Table.get?_set_self hrow rfl, rfl⟩

theorem get?_syncClaim_ne (w : World) {claim : GetClaimPixKeyPspResponseItem} {id : Uuid}
    (h : claim.id ≠ id) : (syncClaim w claim).claims.get? id = w.claims.get? id := by
  rw [syncClaim]
  cases hrow : w.claims.get? claim.id with
  | none => exact Table.get?_upsert_ne h
  | some row =>
      dsimp only
      split_ifs
      · rfl
      · exact Table.get?_set_ne h

theorem ready_syncClaim (w : World) (claim : GetClaimPixKeyPspResponseItem) :
    (syncClaim w claim).ready =
      w.ready ++ if w.Differs claim then [claim.readyPixKeyClaim] else [] := by
  rw [syncClaim]
  cases hrow : w.claims.get? claim.id with
  | none =>
      have hdiffers : w.Differs claim := by simp [World.Differs, hrow]
      rw [if_pos hdiffers]
  | some row =>
      dsimp only
      split_ifs with hstatus hdiffers hdiffers
      · simp [World.Differs, hrow, hstatus] at hdiffers
      · exact (List.append_nil _).symm
      · rfl
      · simp [World.Differs, hrow, hstatus] at hdiffers

/-- The claims of a page are about different rows. -/
theorem synced_foldl (w : World) (hnodup : (claims.map (·.id)).Nodup) :
    Synced w (claims.foldl syncClaim w) claims ∧
      ∀ id, id ∉ claims.map (·.id) →
        (claims.foldl syncClaim w).claims.get? id = w.claims.get? id := by
  induction claims generalizing w with
  | nil =>
      exact ⟨⟨fun _ h => absurd h List.not_mem_nil, (List.append_nil _).symm⟩, fun _ _ => rfl⟩
  | cons claim claims ih =>
      rw [List.map_cons, List.nodup_cons] at hnodup
      obtain ⟨⟨hstored, hready⟩, hother⟩ := ih (syncClaim w claim) hnodup.2
      have hdiffers : ∀ c ∈ claims, (syncClaim w claim).Differs c ↔ w.Differs c := by
        intro c hc
        have hne : claim.id ≠ c.id := fun heq => hnodup.1 (heq ▸ List.mem_map_of_mem hc)
        rw [World.Differs, World.Differs, get?_syncClaim_ne w hne]
      have hfilter : claims.filter (syncClaim w claim).Differs = claims.filter w.Differs :=
        List.filter_congr fun c hc => decide_eq_decide.mpr (hdiffers c hc)
      refine ⟨⟨?_, ?_⟩, ?_⟩
      · intro c hc
        rcases List.mem_cons.mp hc with rfl | hc
        · rw [List.foldl_cons, hother c.id hnodup.1]
          exact get?_syncClaim w c
        · exact hstored c hc
      · rw [List.foldl_cons, hready, ready_syncClaim, hfilter, List.append_assoc, List.filter_cons]
        by_cases hd : w.Differs claim
        · simp only [if_pos hd, decide_eq_true hd, if_true, List.map_cons, List.singleton_append]
        · simp only [if_neg hd, decide_eq_false hd, Bool.false_eq_true, if_false, List.nil_append]
      · intro id hid
        rw [List.map_cons, List.mem_cons, not_or] at hid
        rw [List.foldl_cons, hother id hid.2, get?_syncClaim_ne w (Ne.symm hid.1)]

/-! ### The loop -/

/-- A loop whose first answer says that there is more never ends, since no answer is another. -/
theorem syncPages_of_more {getClaimPixKey : GetClaimPixKeyPspRequest → GetClaimPixKeyPspResponse}
    (hmore : (getClaimPixKey body).hasMoreElements) (fuel : ℕ) (w : World) :
    syncPages getClaimPixKey body fuel w = none := by
  induction fuel generalizing w with
  | zero => rfl
  | succ fuel ih => rw [syncPages, if_pos hmore, ih]

theorem nodup_window (psp : Table GetClaimPixKeyPspResponseItem) (body : GetClaimPixKeyPspRequest) :
    ((window psp body).map (·.id)).Nodup :=
  psp.nodup.sublist (List.filter_sublist.map _)

/-- The job ends and has every claim of its days stored when they fit into a page. -/
theorem synced_iff :
    (∃ fuel w', execute config psp now fuel w = some w' ∧
        Synced w w' (window psp (requestBody config now))) ↔
      (window psp (requestBody config now)).length ≤ config.pageSize := by
  constructor
  · rintro ⟨fuel, w', hrun, -⟩
    by_contra hmore
    have hmore' : (getClaimPixKey psp (requestBody config now)).hasMoreElements :=
      decide_eq_true (not_le.mp hmore)
    rw [execute, syncPages_of_more hmore'] at hrun
    cases hrun
  · intro hle
    have hclaims : (getClaimPixKey psp (requestBody config now)).claims =
        window psp (requestBody config now) := List.take_of_length_le hle
    have hlast : (getClaimPixKey psp (requestBody config now)).hasMoreElements = false :=
      decide_eq_false (not_lt.mpr hle)
    refine ⟨1, _, ?_, (synced_foldl w (nodup_window psp _)).1⟩
    simp only [execute, syncPages, hclaims, hlast, Bool.false_eq_true, if_false]

/-! ### A run -/

/-- Two claims of today, and pages of one. -/
def twoClaims : Table GetClaimPixKeyPspResponseItem where
  rows := [1, 2].map fun id => ⟨id, .OWNERSHIP, "key", .EVP, "1", none, none, none, none, none, none,
    some 0, .OPEN⟩
  nodup := by decide

theorem not_synced : ¬∃ fuel w', execute ⟨"1", 1, 15⟩ twoClaims 0 fuel ⟨Table.empty, []⟩ = some w' ∧
    Synced ⟨Table.empty, []⟩ w' (window twoClaims (requestBody ⟨"1", 1, 15⟩ 0)) := by
  rintro ⟨fuel, w', hrun, -⟩
  rw [execute, syncPages_of_more (by decide +kernel)] at hrun
  cases hrun

end ZroServices.PixKeys.SyncClaims
