/-
  **A capability is only narrowed on its way** (`application/authorization/capabilities.ts`).

  Each link of an accepted chain restricts every one before it.  What `delegateCapability` makes
  of an accepted parent is accepted again, once its audience has signed it, unless the resource of
  the parent is an object or an array, which is never `===` to another (`delegation_attenuates`).
-/
import WebOfTrust.VaultAccess
import Mathlib.Data.List.Chain
import Mathlib.Data.List.Sort

namespace WebOfTrust

open ClaimValue List

/-! ## 1. Delegation -/

structure DelegationParams where
  audience : String
  permissions : List VaultPermission
  expiration : String

/-- `SignFn`, on the fields and the proof of a capability. -/
abbrev CapabilitySignFn := CapabilityClaims → CapabilityJws → Except String CapabilityJws

/-- `[...permissions].sort()`. -/
def sortPermissions (permissions : List VaultPermission) : List ClaimItem :=
  ((permissions.map VaultPermission.name).insertionSort (· ≤ ·)).map .text

def cannotDelegate (perm : VaultPermission) : ClaimValue → String
  | .list items => "Cannot delegate permission \"" ++ perm.name ++ "\" — not in parent [" ++
      ", ".intercalate (items.map ClaimItem.shown) ++ "]"
  | _ => "parent.permissions.join is not a function"

def delegateCapability (env : VaultEnvironment) (parentCapabilityJws : CapabilityJws)
    (randomUUID : String) (params : DelegationParams) (sign : CapabilitySignFn) :
    Except String CapabilityJws :=
  match extractCapability parentCapabilityJws with
  | none => .error "Invalid parent capability"
  | some parent =>
    match parent.permissions.includes "delegate" with
    | .error error => .error error
    | .ok false => .error "Parent capability does not include \"delegate\" permission"
    | .ok true =>
      match params.permissions.find? fun perm =>
          !decide (.text perm.name ∈ parent.permissions.items) with
      | some perm => .error (cannotDelegate perm parent.permissions)
      | none =>
        if (env.parseDate (.text params.expiration)).any fun childExpiry =>
            (env.parseDate parent.expiration).any (childExpiry > ·) then
          .error "Delegated capability cannot expire after parent"
        else
          sign ⟨.text randomUUID, parent.audience, .text params.audience, parent.resource,
            .list (sortPermissions params.permissions), .text params.expiration⟩
            parentCapabilityJws

/-- The tokens of a chain, leaf first, as are its `links`. -/
def CapabilityJws.jwss : CapabilityJws → List (DecodedJws CapabilityClaims)
  | .undecodable _ | .noObject => []
  | .root jws => [jws]
  | .delegated jws proof => jws :: proof.jwss

structure Restricts (env : VaultEnvironment) (child ancestor : CapabilityClaims) : Prop where
  resource : child.resource = ancestor.resource
  permissions : ∀ perm ∈ child.permissions.items, perm ∈ ancestor.permissions.items
  delegates : .text "delegate" ∈ ancestor.permissions.items
  expiration : ∃ expiry ancestorExpiry, env.parseDate child.expiration = some expiry ∧
    env.parseDate ancestor.expiration = some ancestorExpiry ∧ expiry ≤ ancestorExpiry

structure AttenuatedChain (env : VaultEnvironment) (t : Int) (token : CapabilityJws)
    (result : VerifiedCapability) : Prop where
  links : token.links = (result.chain ++ [result.capability]).reverse
  signed : ∀ jws ∈ token.jwss, ∃ issuer, jws.payload.issuer = .text issuer ∧ SignedBy env issuer jws
  issuers : token.links.IsChain fun child parent => child.issuer = parent.audience
  restricts : token.links.Pairwise (Restricts env)
  unexpired : ∀ link ∈ token.links, ∃ expiry, env.parseDate link.expiration = some expiry ∧
    t < expiry

/-- Some of the permissions of the parent, which may delegate, for a time that ends no later. -/
structure DelegationParams.Narrows (params : DelegationParams) (env : VaultEnvironment) (t : Int)
    (parent : CapabilityClaims) : Prop where
  nonempty : params.permissions ≠ []
  subset : ∀ perm ∈ params.permissions, .text perm.name ∈ parent.permissions.items
  delegates : .text "delegate" ∈ parent.permissions.items
  valid : params.expiration ≠ ""
  expires : ∃ expiry parentExpiry, env.parseDate (.text params.expiration) = some expiry ∧
    env.parseDate parent.expiration = some parentExpiry ∧ t < expiry ∧ expiry ≤ parentExpiry

/-- What is signed is accepted if the audience of the parent signs it. -/
def DelegationAccepted (env : VaultEnvironment) (t : Int) (token : CapabilityJws)
    (parent : VerifiedCapability) (randomUUID : String) (params : DelegationParams) : Prop :=
  ∃ claims, (∀ sign, delegateCapability env token randomUUID params sign = sign claims token) ∧
    ∀ did jws, parent.capability.audience = .text did → jws.payload = claims →
      SignedBy env did jws → verifyCapability env (fun _ => t) 0 (.delegated jws token) =
        .ok ⟨claims, parent.chain ++ [parent.capability]⟩

/-! ## 2. Chains -/

variable {env : VaultEnvironment} {t : Int} {n : Nat} {clock : Nat → Int} {token : CapabilityJws}
  {result : VerifiedCapability} {claims : CapabilityClaims} {params : DelegationParams}

theorem ClaimValue.eq_of_same {a b : ClaimValue} (h : a.same b = true) : a = b := by
  cases a <;> cases b <;> simp_all [same]

theorem validateCapabilityFields_none : validateCapabilityFields claims = none ↔
    (claims.id.falsy = false ∧ claims.issuer.falsy = false ∧ claims.audience.falsy = false ∧
      claims.resource.falsy = false) ∧ claims.permissions.items ≠ [] ∧
      claims.expiration.falsy = false ∧
      ∀ perm ∈ claims.permissions.items, perm ∈ validPerms.map ClaimItem.text := by
  unfold validateCapabilityFields
  split_ifs <;> simp_all

instance : Trans (Restricts env) (Restricts env) (Restricts env) where
  trans {child parent ancestor} h h' := by
    obtain ⟨expiry, parentExpiry, hexpiry, hparent, hle⟩ := h.expiration
    obtain ⟨parentExpiry', ancestorExpiry, hparent', hancestor, hle'⟩ := h'.expiration
    obtain rfl : parentExpiry = parentExpiry' := Option.some.inj (hparent.symm.trans hparent')
    exact ⟨h.resource.trans h'.resource, fun perm hp => h'.permissions perm (h.permissions perm hp),
      h'.delegates, expiry, ancestorExpiry, hexpiry, hancestor, hle.trans hle'⟩

section

variable (h : ValidChain env clock n token claims)
include h

theorem ValidChain.link : ∃ jws ∈ token.jwss.head?, jws.payload = claims ∧
      ∃ expiry, ValidLink env (clock n) jws expiry := by
  cases h with
  | root hlink | delegated hlink _ _ => exact ⟨_, rfl, rfl, _, hlink⟩

theorem ValidChain.head : token.links.head? = some claims := by
  cases h with
  | root _ | delegated _ _ _ => rfl

theorem ValidChain.issuers :
    token.links.IsChain fun child parent => child.issuer = parent.audience := by
  induction h with
  | root _ => exact .singleton _
  | delegated _ hparent hattenuates ih =>
    refine isChain_cons.mpr ⟨fun parent hp => ?_, ih⟩
    rw [hparent.head] at hp
    cases hp
    exact (eq_of_same hattenuates.audience).symm

theorem ValidChain.restricts : token.links.Pairwise (Restricts env) := by
  refine IsChain.pairwise ?_
  induction h with
  | root _ => exact .singleton _
  | delegated hlink hparent hattenuates ih =>
    refine isChain_cons.mpr ⟨fun parent hp => ?_, ih⟩
    rw [hparent.head] at hp
    cases hp
    obtain ⟨_, -, rfl, parentExpiry, hvalid⟩ := hparent.link
    exact ⟨(eq_of_same hattenuates.resource).symm, hattenuates.permissions,
      hattenuates.delegates, _, parentExpiry, hlink.expires, hvalid.expires,
      hattenuates.expiry _ hvalid.expires⟩

theorem ValidChain.signed :
    ∀ jws ∈ token.jwss, ∃ issuer, jws.payload.issuer = .text issuer ∧ SignedBy env issuer jws := by
  induction h with
  | root hlink =>
    intro jws hj
    rw [mem_singleton.mp hj]
    exact hlink.signed
  | delegated hlink _ _ ih =>
    intro jws hj
    rcases mem_cons.mp hj with rfl | hrest
    · exact hlink.signed
    · exact ih jws hrest

end

theorem ValidChain.unexpired (h : ValidChain env (fun _ => t) n token claims) :
    ∀ link ∈ token.links, ∃ expiry, env.parseDate link.expiration = some expiry ∧ t < expiry := by
  induction h with
  | root hlink =>
    intro link hl
    rw [mem_singleton.mp hl]
    exact ⟨_, hlink.expires, hlink.unexpired⟩
  | delegated hlink _ _ ih =>
    intro link hl
    rcases mem_cons.mp hl with rfl | hrest
    · exact ⟨_, hlink.expires, hlink.unexpired⟩
    · exact ih link hrest

theorem verifyCapability_links (h : verifyCapability env clock n token = .ok result) :
    token.links = (result.chain ++ [result.capability]).reverse := by
  induction token generalizing n result with
  | undecodable message | noObject => cases h
  | root jws =>
    rw [verifyCapability] at h
    rcases hcheck : checkCapability env (clock n) jws with error | expiry
    · rw [hcheck] at h
      cases h
    rw [hcheck] at h
    cases h
    rfl
  | delegated jws proof ih =>
    rw [verifyCapability] at h
    split at h
    · cases h
    next expiry hcheck =>
    split at h
    · cases h
    next parent hparent =>
    rcases hattenuates : checkAttenuation env parent.capability jws.payload expiry with error | _
    · rw [hattenuates] at h
      cases h
    rw [hattenuates] at h
    cases h
    rw [CapabilityJws.links, ih hparent]
    exact (reverse_concat ..).symm

theorem verifyCapability_at (n m : Nat) :
    verifyCapability env (fun _ => t) n token = verifyCapability env (fun _ => t) m token := by
  induction token generalizing n m with
  | undecodable message | noObject | root jws => rfl
  | delegated jws proof ih =>
    rw [verifyCapability, verifyCapability, ih (n + 1) (m + 1)]

/-! ## 3. Delegated tokens -/

theorem mem_sortPermissions {permissions : List VaultPermission} {perm : ClaimItem} :
    perm ∈ sortPermissions permissions ↔ ∃ p ∈ permissions, .text p.name = perm := by
  simp [sortPermissions]

theorem VaultPermission.valid (perm : VaultPermission) :
    ClaimItem.text perm.name ∈ validPerms.map ClaimItem.text := by
  cases perm <;> decide

theorem ClaimValue.includes_of_mem {value : ClaimValue} {needle : String}
    (h : .text needle ∈ value.items) : value.includes needle = .ok true := by
  cases value with
  | list items => exact congrArg Except.ok (decide_eq_true h)
  | absent | text | primitive | object => cases h

def delegatedClaims (parent : CapabilityClaims) (randomUUID : String)
    (params : DelegationParams) : CapabilityClaims :=
  ⟨.text randomUUID, parent.audience, .text params.audience, parent.resource,
    .list (sortPermissions params.permissions), .text params.expiration⟩

theorem delegateCapability_signs {parent : CapabilityClaims} {randomUUID : String}
    (hparent : extractCapability token = some parent) (hnarrows : params.Narrows env t parent)
    (sign : CapabilitySignFn) : delegateCapability env token randomUUID params sign =
      sign (delegatedClaims parent randomUUID params) token := by
  obtain ⟨expiry, parentExpiry, hexpiry, hparentExpiry, -, hle⟩ := hnarrows.expires
  have hfind : params.permissions.find?
      (fun perm => !decide (.text perm.name ∈ parent.permissions.items)) = none := by
    rw [find?_eq_none]
    intro perm hperm
    simp [hnarrows.subset perm hperm]
  unfold delegateCapability
  simp only [hparent, includes_of_mem hnarrows.delegates, hfind, hexpiry, hparentExpiry,
    Option.any_some, decide_eq_true_eq, not_lt.mpr hle, gt_iff_lt, if_false]
  rfl

theorem delegatedClaims_valid {parent : CapabilityClaims} {randomUUID : String}
    (hvalid : validateCapabilityFields parent = none) (hid : randomUUID ≠ "")
    (haudience : params.audience ≠ "") (hnarrows : params.Narrows env t parent) :
    validateCapabilityFields (delegatedClaims parent randomUUID params) = none := by
  obtain ⟨⟨-, -, hissuer, hresource⟩, -⟩ := validateCapabilityFields_none.mp hvalid
  refine validateCapabilityFields_none.mpr ⟨⟨?_, hissuer, ?_, hresource⟩, ?_, ?_, ?_⟩
  · simpa [delegatedClaims, falsy] using hid
  · simpa [delegatedClaims, falsy] using haudience
  · obtain ⟨perm, hperm⟩ := exists_mem_of_ne_nil _ hnarrows.nonempty
    exact ne_nil_of_mem (mem_sortPermissions.mpr ⟨perm, hperm, rfl⟩)
  · simpa [delegatedClaims, falsy] using hnarrows.valid
  · intro perm hperm
    obtain ⟨p, -, rfl⟩ := mem_sortPermissions.mp hperm
    exact p.valid

theorem delegation_attenuates (h : verifyCapability env (fun _ => t) 0 token = .ok result) :
    AttenuatedChain env t token result ∧ ∀ (randomUUID : String) (params : DelegationParams),
      randomUUID ≠ "" → params.Narrows env t result.capability → params.audience ≠ "" →
      result.capability.resource.same result.capability.resource = true →
      DelegationAccepted env t token result randomUUID params := by
  have hchain : ValidChain env (fun _ => t) 0 token result.capability :=
    verifyCapability_ok.mp ⟨result.chain, h⟩
  refine ⟨⟨verifyCapability_links h, hchain.signed, hchain.issuers, hchain.restricts,
    hchain.unexpired⟩, fun randomUUID params hid hnarrows haudience hresource =>
    ⟨delegatedClaims result.capability randomUUID params,
      delegateCapability_signs hchain.extract hnarrows, ?_⟩⟩
  rintro did jws hdid hpayload hsigned
  obtain ⟨parentJws, -, hclaims, _, hparent⟩ := hchain.link
  obtain ⟨expiry, parentExpiry, hexpiry, hparentExpiry, hlater, hle⟩ := hnarrows.expires
  have hlink : ValidLink env t jws expiry := by
    refine ⟨?_, ?_, hlater, did, ?_, hsigned⟩
    · rw [hpayload]
      exact delegatedClaims_valid (hclaims ▸ hparent.fields) hid haudience hnarrows
    · rw [hpayload]
      exact hexpiry
    · rw [hpayload]
      exact hdid
  have hattenuates : Attenuates env result.capability jws.payload expiry := by
    rw [hpayload]
    refine ⟨?_, hresource, ?_, ?_, hnarrows.delegates⟩
    · rw [delegatedClaims, hdid]
      exact decide_eq_true rfl
    · intro perm hperm
      obtain ⟨p, hp, rfl⟩ := mem_sortPermissions.mp hperm
      exact hnarrows.subset p hp
    · intro e he
      rw [hparentExpiry] at he
      cases he
      exact hle
  rw [verifyCapability, checkCapability_ok.mpr hlink]
  dsimp only
  rw [verifyCapability_at (0 + 1) 0, h]
  dsimp only
  rw [checkAttenuation_ok.mpr hattenuates, hpayload]
  rfl

def keysOfTwo : VaultEnvironment where
  didKeyToPublicKeyBytes did :=
    if did = "did:key:zA" then .ok [1]
    else if did = "did:key:zB" then .ok [2]
    else .error "Expected did:key"
  verifyEd25519 _ signature publicKey := decide (signature = publicKey)
  parseDate date := if date = .text "2030-01-01T00:00:00Z" then some 1893456000000 else none

def signedBy (key : UInt8) (claims : CapabilityClaims) : DecodedJws CapabilityClaims :=
  ⟨some ⟨some "EdDSA", some "#sig-0"⟩, claims, [], [key]⟩

variable (resource : ClaimValue)

def parentClaims : CapabilityClaims :=
  ⟨.text "c1", .text "did:key:zA", .text "did:key:zB", resource,
    .list [.text "delegate", .text "read"], .text "2030-01-01T00:00:00Z"⟩

def parentJws : CapabilityJws := .root (signedBy 1 (parentClaims resource))

def middleClaims : CapabilityClaims :=
  { parentClaims resource with
    id := .text "c2", issuer := .text "did:key:zB", audience := .text "did:key:zA" }

def readOnly (audience : String) : DelegationParams := ⟨audience, [.read], "2030-01-01T00:00:00Z"⟩

theorem readOnly_narrows (audience : String) (id issuer holder : ClaimValue) :
    (readOnly audience).Narrows keysOfTwo 0
      { parentClaims resource with id, issuer, audience := holder } where
  nonempty := cons_ne_nil _ _
  subset perm hperm := by
    rw [mem_singleton.mp hperm]
    exact .tail _ (.head _)
  delegates := .head _
  valid := (by decide : "2030-01-01T00:00:00Z" ≠ "")
  expires := ⟨_, _, rfl, rfl, by decide, le_rfl⟩

theorem delegation_attenuates_readOnly :
    AttenuatedChain keysOfTwo 0
      (.delegated (signedBy 2 (middleClaims (.text "wot:space:1")))
        (parentJws (.text "wot:space:1")))
      ⟨middleClaims (.text "wot:space:1"), [parentClaims (.text "wot:space:1")]⟩ ∧
    DelegationAccepted keysOfTwo 0
      (.delegated (signedBy 2 (middleClaims (.text "wot:space:1")))
        (parentJws (.text "wot:space:1")))
      ⟨middleClaims (.text "wot:space:1"), [parentClaims (.text "wot:space:1")]⟩ "c3"
      (readOnly "did:key:zC") := by
  have hparent := @delegation_attenuates keysOfTwo 0 (.delegated
    (signedBy 2 (middleClaims (.text "wot:space:1"))) (parentJws (.text "wot:space:1"))) _ rfl
  exact ⟨hparent.1, hparent.2 "c3" _ (by decide) (readOnly_narrows _ _ _ _ _) (by decide) rfl⟩

/-- What is built from any accepted parent is accepted, under a condition. -/
def DelegatesIf (condition : CapabilityClaims → DelegationParams → Prop) : Prop :=
  ∀ (env : VaultEnvironment) (t : Int) (token : CapabilityJws) (result : VerifiedCapability)
    (randomUUID : String) (params : DelegationParams),
    verifyCapability env (fun _ => t) 0 token = .ok result → randomUUID ≠ "" →
    params.Narrows env t result.capability → condition result.capability params →
    DelegationAccepted env t token result randomUUID params

theorem DelegationAccepted.verify {resource : ClaimValue} {audience : String}
    (h : DelegationAccepted keysOfTwo 0 (parentJws resource) ⟨parentClaims resource, []⟩ "c2"
      (readOnly audience)) :
    ∃ accepted, verifyCapability keysOfTwo (fun _ => 0) 0 (.delegated (signedBy 2
      (delegatedClaims (parentClaims resource) "c2" (readOnly audience))) (parentJws resource)) =
        .ok accepted := by
  obtain ⟨claims, hsign, haccepted⟩ := h
  have hclaims := (hsign fun claims _ => .ok (.root (signedBy 2 claims))).symm.trans
    (delegateCapability_signs (show extractCapability (parentJws resource) = _ from rfl)
      (readOnly_narrows resource audience _ _ _) _)
  cases hclaims
  exact ⟨_, haccepted "did:key:zB" (signedBy 2 _) rfl rfl
    ⟨[2], _, _, rfl, rfl, rfl, rfl, by decide, rfl⟩⟩

/-- Not if the resource is an array, and not for an empty audience. -/
theorem delegated_token_refused : ¬ DelegatesIf (fun _ params => params.audience ≠ "") ∧
    ¬ DelegatesIf (fun parent _ => parent.resource.same parent.resource = true) := by
  constructor
  · intro h
    obtain ⟨accepted, haccepted⟩ := (h keysOfTwo 0 (parentJws (.list [.text "wot:space:1"])) _ "c2"
      (readOnly "did:key:zC") rfl (by decide) (readOnly_narrows _ _ _ _ _)
      (by decide : "did:key:zC" ≠ "")).verify
    cases haccepted
  · intro h
    obtain ⟨accepted, haccepted⟩ := (h keysOfTwo 0 (parentJws (.text "wot:space:1")) _ "c2"
      (readOnly "") rfl (by decide) (readOnly_narrows _ _ _ _ _) rfl).verify
    cases haccepted

end WebOfTrust
