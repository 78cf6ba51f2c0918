import Mathlib.Data.List.Infix
import Mathlib.Data.List.Pairwise
import Banking.ChartKeys
import Banking.Idempotency

/-! # Grants and the client directory

What a service's certificate says it is, and the labels it may open in which scope: both read once
from the configuration, and both refused unless no label and no certificate can name two clients. -/

namespace Banking

/-! ## Grants -/

/-- Whether a client is banking itself, which is never a caller. -/
def ClientId.isBanking (c : ClientId) : Bool := c = .banking

/-- One client's standing in one scope: the labels it may open there, and whether it may touch
users' compartments. -/
structure Grant where
  client : ClientId
  scope : ScopeId
  labelPrefix : String
  compartments : Bool
deriving DecidableEq, Repr

/-- Whether a label is under the grant's prefix. -/
def Grant.covers (g : Grant) (label : ScopeAccountLabel) : Bool :=
  g.labelPrefix.toList.isPrefixOf label.label.toList

/-- Whether two grants are in one scope with one's prefix under the other's. -/
def Grant.overlaps (other g : Grant) : Bool :=
  other.scope = g.scope &&
    (g.labelPrefix.toList.isPrefixOf other.labelPrefix.toList ||
      other.labelPrefix.toList.isPrefixOf g.labelPrefix.toList)

/-- What one grant must satisfy by itself. -/
structure Grant.Sound (g : Grant) : Prop where
  client : g.client.isBanking = false
  scope : g.scope.isMain = false
  shaped : ScopeAccountLabel.Shaped ⟨g.labelPrefix⟩

/-- What a list of grants must satisfy: each is sound, and no two overlap. -/
structure Grant.Partition (grants : List Grant) : Prop where
  sound : ∀ g ∈ grants, g.Sound
  apart : grants.Pairwise fun other g => other.overlaps g = false

/-- Every grant of the configuration, checked when it was loaded. -/
structure Grants where
  grants : List Grant
  partition : Grant.Partition grants

/-- The check of the grant after `earlier`, in its order: whom it is to, where, its prefix, and each
earlier grant. -/
def Grants.check (earlier : List Grant) (g : Grant) : Except DomainError Unit :=
  let i := toString earlier.length
  if g.client.isBanking then
    .error (.validation ("grant #" ++ i ++
      ": client_id \"banking\" is banking's own and cannot be granted"))
  else if g.scope.isMain then
    .error (.validation ("grant #" ++ i ++ " (" ++ g.client.id ++
      "): scope main is banking's own and cannot be granted"))
  else if g.labelPrefix = "" ∨ ¬ ScopeAccountLabel.Shaped ⟨g.labelPrefix⟩ then
    .error (.validation ("grant #" ++ i ++ " (" ++ g.client.id ++ " in " ++ g.scope.id ++
      "): label_prefix must match [a-z0-9_:.-]\x7b1,64\x7d, got " ++ g.labelPrefix.quote))
  else
    match earlier.zipIdx.find? fun o => o.1.overlaps g with
    | some (other, j) =>
      .error (.validation ("grants #" ++ toString j ++ " (" ++ other.client.id ++ " " ++
        other.labelPrefix.quote ++ ") and #" ++ i ++ " (" ++ g.client.id ++ " " ++
        g.labelPrefix.quote ++ ") overlap in scope " ++ g.scope.id ++
        ": a label one prefix covers must not be coverable by another"))
    | none => .ok ()

/-- The checks of the grants after `earlier`, first to last. -/
def Grants.checkFrom : List Grant → List Grant → Except DomainError Unit
  | _, [] => .ok ()
  | earlier, g :: rest => do
    Grants.check earlier g
    Grants.checkFrom (earlier ++ [g]) rest

/-- No earlier grant overlaps exactly when the search for one finds none. -/
theorem Grants.find_overlap_none {earlier : List Grant} {g : Grant} :
    (earlier.zipIdx.find? fun o => o.1.overlaps g) = none ↔
      ∀ other ∈ earlier, other.overlaps g = false := by
  rw [List.find?_eq_none]
  constructor
  · intro h other hmem
    obtain ⟨j, hj⟩ := List.getElem?_of_mem hmem
    simpa using h (other, j) (List.mk_mem_zipIdx_iff_getElem?.mpr hj)
  · intro h o ho
    simpa using h o.1 (List.fst_mem_of_mem_zipIdx ho)

/-- A grant passes its check exactly when it is sound and overlaps none before it. -/
theorem Grants.check_ok_iff {earlier : List Grant} {g : Grant} :
    Grants.check earlier g = .ok () ↔ g.Sound ∧ ∀ other ∈ earlier, other.overlaps g = false := by
  rw [← Grants.find_overlap_none]
  unfold Grants.check
  constructor
  · intro h
    split_ifs at h with hclient hscope hshaped
    rw [not_or, not_not] at hshaped
    refine ⟨⟨by simpa using hclient, by simpa using hscope, hshaped.2⟩, ?_⟩
    cases hfind : earlier.zipIdx.find? fun o => o.1.overlaps g with
    | none => rfl
    | some o => simp [hfind] at h
  · rintro ⟨hsound, hnone⟩
    have hne : g.labelPrefix ≠ "" := hsound.shaped.1
    simp [hsound.client, hsound.scope, hsound.shaped, hne, hnone]

/-- The grants after `earlier` pass exactly when each is sound and overlaps none before it. -/
theorem Grants.checkFrom_ok_iff {earlier rest : List Grant} :
    Grants.checkFrom earlier rest = .ok () ↔
      (∀ g ∈ rest, g.Sound) ∧ (∀ other ∈ earlier, ∀ g ∈ rest, other.overlaps g = false) ∧
        rest.Pairwise fun other g => other.overlaps g = false := by
  induction rest generalizing earlier with
  | nil => simp [Grants.checkFrom]
  | cons g rest ih =>
    have hbind : Grants.checkFrom earlier (g :: rest) = .ok () ↔
        Grants.check earlier g = .ok () ∧ Grants.checkFrom (earlier ++ [g]) rest = .ok () := by
      rw [Grants.checkFrom, bind_ok_iff]
      exact ⟨fun ⟨_, hcheck, hrest⟩ => ⟨hcheck, hrest⟩, fun ⟨hcheck, hrest⟩ => ⟨(), hcheck, hrest⟩⟩
    rw [hbind, Grants.check_ok_iff, ih]
    simp only [List.forall_mem_cons, List.pairwise_cons, List.forall_mem_append]
    grind

/-- The grants of a configuration, or the first that is refused. -/
def Grants.new (grants : List Grant) : Except DomainError Grants :=
  match h : Grants.checkFrom [] grants with
  | .error e => .error e
  | .ok () => .ok ⟨grants, (Grants.checkFrom_ok_iff.mp h).1, (Grants.checkFrom_ok_iff.mp h).2.2⟩

/-- What is accepted is the configuration's list, whenever it partitions the labels. -/
theorem Grants.new_ok_iff {grants : List Grant} {g : Grants} :
    Grants.new grants = .ok g ↔ g.grants = grants := by
  unfold Grants.new
  constructor
  · intro h
    split at h
    · cases h
    · cases h
      rfl
  · rintro rfl
    have hcheck : Grants.checkFrom [] g.grants = .ok () :=
      Grants.checkFrom_ok_iff.mpr ⟨g.partition.sound, by simp, g.partition.apart⟩
    split
    · next e he => simp [hcheck] at he
    · rfl

/-- What a client holds in a scope. -/
def Grants.inScope (g : Grants) (client : ClientId) (scope : ScopeId) : List Grant :=
  g.grants.filter fun grant => grant.client = client && grant.scope = scope

/-- Whether a client may open a label in a scope: one of its grants there covers it, and it is not
one of banking's own. -/
def Grants.mayOpen (g : Grants) (client : ClientId) (scope : ScopeId) (label : ScopeAccountLabel) :
    Bool :=
  !label.isReserved && (g.inScope client scope).any fun grant => grant.covers label

/-- Every scope a client holds a grant in, each once, in the configuration's order. -/
def Grants.scopesOf (g : Grants) (client : ClientId) : List ScopeId :=
  (g.grants.filter (·.client = client)).foldl
    (fun scopes grant => if grant.scope ∈ scopes then scopes else scopes ++ [grant.scope]) []

/-- Whether one of a client's grants in a scope lets it touch users' compartments there. -/
def Grants.compartments (g : Grants) (client : ClientId) (scope : ScopeId) : Bool :=
  (g.inScope client scope).any (·.compartments)

theorem Grants.mem_inScope {g : Grants} {client : ClientId} {scope : ScopeId} {grant : Grant} :
    grant ∈ g.inScope client scope ↔
      grant ∈ g.grants ∧ grant.client = client ∧ grant.scope = scope := by
  simp [Grants.inScope]

/-- Two grants that cover one label overlap. -/
theorem Grant.overlaps_of_covers {other g : Grant} {label : ScopeAccountLabel}
    (hscope : other.scope = g.scope) (hother : other.covers label = true)
    (hg : g.covers label = true) : other.overlaps g = true := by
  simp only [Grant.covers, List.isPrefixOf_iff_prefix] at hother hg
  simp only [Grant.overlaps, hscope, decide_true, Bool.true_and, Bool.or_eq_true,
    List.isPrefixOf_iff_prefix]
  exact List.prefix_or_prefix_of_prefix hg hother

/-- Overlap is mutual. -/
theorem Grant.overlaps_comm (other g : Grant) : other.overlaps g = g.overlaps other := by
  simp only [Grant.overlaps, eq_comm, Bool.or_comm]

instance : Std.Symm fun other g : Grant => other.overlaps g = false :=
  ⟨fun _ _ h => by rwa [Grant.overlaps_comm]⟩

/-- **One grant at most covers a label of a scope.** -/
theorem Grant.Partition.unique {grants : List Grant} (h : Grant.Partition grants)
    {other g : Grant} {label : ScopeAccountLabel} (hother : other ∈ grants) (hg : g ∈ grants)
    (hscope : other.scope = g.scope) (hcovers : other.covers label = true)
    (hcovers' : g.covers label = true) : other = g := by
  by_contra hne
  have hapart := h.apart.forall hother hg hne
  simp [Grant.overlaps_of_covers hscope hcovers hcovers'] at hapart

/-- Reordered, a partition is one. -/
theorem Grant.Partition.perm {grants grants' : List Grant} (h : Grant.Partition grants)
    (hperm : grants.Perm grants') : Grant.Partition grants' :=
  ⟨fun g hg => h.sound g (hperm.mem_iff.mpr hg),
    h.apart.perm hperm fun {a b} hab => by rwa [Grant.overlaps_comm]⟩

/-- What a client may open is read off the grants as a set. -/
theorem Grants.mayOpen_iff {g : Grants} {client : ClientId} {scope : ScopeId}
    {label : ScopeAccountLabel} :
    g.mayOpen client scope label = true ↔ label.isReserved = false ∧
      ∃ grant ∈ g.grants, grant.client = client ∧ grant.scope = scope ∧
        grant.covers label = true := by
  simp only [Grants.mayOpen, Bool.and_eq_true, Bool.not_eq_true', List.any_eq_true,
    Grants.mem_inScope, and_assoc]

/-- So is whether it may touch compartments. -/
theorem Grants.compartments_iff {g : Grants} {client : ClientId} {scope : ScopeId} :
    g.compartments client scope = true ↔ ∃ grant ∈ g.grants, grant.client = client ∧
      grant.scope = scope ∧ grant.compartments = true := by
  simp only [Grants.compartments, List.any_eq_true, Grants.mem_inScope, and_assoc]

/-- So are the scopes it holds a grant in. -/
theorem Grants.mem_scopesOf {g : Grants} {client : ClientId} {scope : ScopeId} :
    scope ∈ g.scopesOf client ↔
      ∃ grant ∈ g.grants, grant.client = client ∧ grant.scope = scope := by
  have hfold : ∀ (grants : List Grant) (scopes : List ScopeId),
      scope ∈ grants.foldl (fun scopes grant =>
          if grant.scope ∈ scopes then scopes else scopes ++ [grant.scope]) scopes ↔
        scope ∈ scopes ∨ ∃ grant ∈ grants, grant.scope = scope := by
    intro grants
    induction grants with
    | nil => simp
    | cons grant grants ih =>
      intro scopes
      rw [List.foldl_cons, ih, List.exists_mem_cons_iff]
      split <;> grind
  simp [Grants.scopesOf, hfold, and_assoc]

/-! ## The client directory -/

/-- A certificate's fingerprint: 64 lowercase hex digits. -/
def Fingerprint.Shaped (fingerprint : String) : Prop :=
  fingerprint.utf8ByteSize = 64 ∧
    fingerprint.toList.all (fun b => b.isDigit || ('a' ≤ b && b ≤ 'f')) = true

instance (f : String) : Decidable (Fingerprint.Shaped f) := inferInstanceAs (Decidable (_ ∧ _))

/-- Which client a certificate is: each fingerprint stands once. -/
structure ClientDirectory where
  byFingerprint : List (String × ClientId)
  nodup : (byFingerprint.map Prod.fst).Nodup

/-- The directory before any entry. -/
def ClientDirectory.empty : ClientDirectory := ⟨[], List.nodup_nil⟩

/-- The client whose certificate has this fingerprint. -/
def ClientDirectory.clientFor (d : ClientDirectory) (fingerprint : String) : Option ClientId :=
  (d.byFingerprint.find? (·.1 = fingerprint)).map (·.2)

/-- Whether any certificate is this client's. -/
def ClientDirectory.knows (d : ClientDirectory) (client : ClientId) : Bool :=
  d.byFingerprint.any (·.2 = client)

/-- One more fingerprint of a client; refused when malformed or already listed. -/
def ClientDirectory.add (client : ClientId) (d : ClientDirectory) (fingerprint : String) :
    Except DomainError ClientDirectory :=
  if ¬ Fingerprint.Shaped fingerprint then
    .error (.validation ("client " ++ client.id ++
      ": cert_sha256 must be 64 lowercase hex digits, got " ++ fingerprint.quote))
  else
    match h : d.byFingerprint.find? (·.1 = fingerprint) with
    | some (_, other) =>
      .error (.validation ("cert_sha256 " ++ fingerprint ++ " is listed for both " ++ other.id ++
        " and " ++ client.id))
    | none =>
      .ok { byFingerprint := d.byFingerprint ++ [(fingerprint, client)]
            nodup := by
              rw [List.map_append, List.nodup_append]
              refine ⟨d.nodup, by simp, ?_⟩
              rw [List.find?_eq_none] at h
              simpa using h }

/-- One more client with its fingerprints. -/
def ClientDirectory.addClient (d : ClientDirectory) (entry : ClientId × List String) :
    Except DomainError ClientDirectory :=
  if entry.1.isBanking then
    .error (.validation "client_id \"banking\" is banking's own and cannot be a caller")
  else if entry.2 = [] then
    .error (.validation ("client " ++ entry.1.id ++ " has no certificate fingerprint"))
  else entry.2.foldlM (ClientDirectory.add entry.1) d

/-- The directory of a configuration, or the first entry that is refused. -/
def ClientDirectory.new (clients : List (ClientId × List String)) :
    Except DomainError ClientDirectory :=
  clients.foldlM ClientDirectory.addClient .empty

/-- The entries a configuration lists. -/
def listedEntries (clients : List (ClientId × List String)) : List (String × ClientId) :=
  clients.flatMap fun entry => entry.2.map (·, entry.1)

theorem ClientDirectory.add_ok {client : ClientId} {d d' : ClientDirectory} {fingerprint : String}
    (h : d.add client fingerprint = .ok d') :
    d'.byFingerprint = d.byFingerprint ++ [(fingerprint, client)] := by
  unfold ClientDirectory.add at h
  split at h
  · cases h
  · split at h
    · cases h
    · cases h
      rfl

theorem ClientDirectory.foldl_add_ok {client : ClientId} {fingerprints : List String}
    {d d' : ClientDirectory} (h : fingerprints.foldlM (ClientDirectory.add client) d = .ok d') :
    d'.byFingerprint = d.byFingerprint ++ fingerprints.map (·, client) := by
  induction fingerprints generalizing d with
  | nil =>
    cases h
    simp
  | cons fingerprint rest ih =>
    rw [List.foldlM_cons, bind_ok_iff] at h
    obtain ⟨next, hadd, hrest⟩ := h
    simp [ih hrest, ClientDirectory.add_ok hadd]

theorem ClientDirectory.addClient_ok {d d' : ClientDirectory} {entry : ClientId × List String}
    (h : d.addClient entry = .ok d') :
    d'.byFingerprint = d.byFingerprint ++ entry.2.map (·, entry.1) := by
  unfold ClientDirectory.addClient at h
  split_ifs at h
  exact ClientDirectory.foldl_add_ok h

/-- The accepted directory holds what the configuration lists. -/
theorem ClientDirectory.new_ok {clients : List (ClientId × List String)} {d : ClientDirectory}
    (h : ClientDirectory.new clients = .ok d) : d.byFingerprint = listedEntries clients := by
  have hfold : ∀ (clients : List (ClientId × List String)) (d d' : ClientDirectory),
      clients.foldlM ClientDirectory.addClient d = .ok d' →
        d'.byFingerprint = d.byFingerprint ++ listedEntries clients := by
    intro clients
    induction clients with
    | nil =>
      intro d d' h
      cases h
      simp [listedEntries]
    | cons entry clients ih =>
      intro d d' h
      rw [List.foldlM_cons, bind_ok_iff] at h
      obtain ⟨next, hadd, hrest⟩ := h
      simp [ih _ _ hrest, ClientDirectory.addClient_ok hadd, listedEntries]
  simpa [ClientDirectory.empty] using hfold clients .empty d h

/-- In a list whose keys stand once, the lookup of a key answers its own entry. -/
theorem find_key_eq_some_iff {κ β : Type} [DecidableEq κ] {l : List (κ × β)}
    (h : (l.map Prod.fst).Nodup) {k : κ} {v : β} :
    (l.find? (·.1 = k)).map (·.2) = some v ↔ (k, v) ∈ l := by
  induction l with
  | nil => simp
  | cons entry l ih =>
    rw [List.map_cons, List.nodup_cons] at h
    by_cases hk : entry.1 = k
    · have hnot : (k, v) ∉ l := fun hmem => h.1 (hk ▸ List.mem_map_of_mem (f := Prod.fst) hmem)
      simp [hk, hnot, Prod.ext_iff, eq_comm]
    · have hne : (k, v) ≠ entry := fun he => hk (he ▸ rfl)
      simp [hk, ih h.2, hne]

/-- **A fingerprint names the client it is listed for**, and no other. -/
theorem ClientDirectory.clientFor_eq_some_iff {clients : List (ClientId × List String)}
    {d : ClientDirectory} (h : ClientDirectory.new clients = .ok d) {fingerprint : String}
    {client : ClientId} :
    d.clientFor fingerprint = some client ↔
      ∃ fingerprints, (client, fingerprints) ∈ clients ∧ fingerprint ∈ fingerprints := by
  rw [ClientDirectory.clientFor, find_key_eq_some_iff d.nodup, ClientDirectory.new_ok h]
  simp only [listedEntries, List.mem_flatMap, List.mem_map, Prod.mk.injEq, Prod.exists]
  grind

/-! ## The partition -/

/-- **Grants partition the scope accounts.** Of the grants a configuration is accepted with: a label
of a scope is one client's to open at most; none opens a label of banking's own, or one in `main`;
in any other order the grants are accepted too and every client is answered alike. And of the
clients it is accepted with: a certificate names the client it is listed for, and no other. -/
theorem grants_partition_scope_accounts :
    (∀ (list : List Grant) (g : Grants), Grants.new list = .ok g →
      (∀ scope label client client', g.mayOpen client scope label = true →
        g.mayOpen client' scope label = true → client = client') ∧
      (∀ client scope label, g.mayOpen client scope label = true →
        label.isReserved = false ∧ scope.isMain = false) ∧
      ∀ list', list.Perm list' → ∃ g', Grants.new list' = .ok g' ∧
        ∀ client scope, (∀ label, g'.mayOpen client scope label = g.mayOpen client scope label) ∧
          g'.compartments client scope = g.compartments client scope ∧
          (scope ∈ g'.scopesOf client ↔ scope ∈ g.scopesOf client)) ∧
    ∀ (clients : List (ClientId × List String)) (d : ClientDirectory),
      ClientDirectory.new clients = .ok d → ∀ fingerprint client,
        (∃ fingerprints, (client, fingerprints) ∈ clients ∧ fingerprint ∈ fingerprints) ↔
          d.clientFor fingerprint = some client := by
  refine ⟨fun list g hnew => ⟨?_, ?_, ?_⟩, ?_⟩
  · intro scope label client client' h h'
    obtain ⟨_, grant, hmem, rfl, hscope, hcovers⟩ := Grants.mayOpen_iff.mp h
    obtain ⟨_, grant', hmem', rfl, hscope', hcovers'⟩ := Grants.mayOpen_iff.mp h'
    exact congrArg Grant.client
      (g.partition.unique hmem hmem' (hscope.trans hscope'.symm) hcovers hcovers')
  · intro client scope label h
    obtain ⟨hreserved, grant, hmem, _, rfl, _⟩ := Grants.mayOpen_iff.mp h
    exact ⟨hreserved, (g.partition.sound grant hmem).scope⟩
  · intro list' hperm
    have hlist := Grants.new_ok_iff.mp hnew
    have hperm' : g.grants.Perm list' := hlist ▸ hperm
    refine ⟨⟨list', g.partition.perm hperm'⟩, Grants.new_ok_iff.mpr rfl, fun client scope => ?_⟩
    refine ⟨fun label => Bool.eq_iff_iff.mpr ?_, Bool.eq_iff_iff.mpr ?_, ?_⟩
    · simp only [Grants.mayOpen_iff, hperm'.mem_iff]
    · simp only [Grants.compartments_iff, hperm'.mem_iff]
    · simp only [Grants.mem_scopesOf, hperm'.mem_iff]
  · exact fun clients d hnew fingerprint client =>
      (ClientDirectory.clientFor_eq_some_iff hnew).symm

/-- Two clients with labels of their own in one scope. -/
def sampleGrants : List Grant :=
  [⟨⟨"invest"⟩, ⟨"invest"⟩, "alloc:", true⟩, ⟨⟨"desk"⟩, ⟨"invest"⟩, "svc:desk", false⟩]

theorem sampleGrants_partition : Grant.Partition sampleGrants :=
  have h := Grants.checkFrom_ok_iff.mp (show Grants.checkFrom [] sampleGrants = .ok () by decide)
  ⟨h.1, h.2.2⟩

/-- The label the sample desk may open is no other client's. -/
theorem grants_partition_sample :
    ∃ g, Grants.new sampleGrants = .ok g ∧
      g.mayOpen ⟨"desk"⟩ ⟨"invest"⟩ ⟨"svc:desk:1"⟩ = true ∧
      ∀ client, g.mayOpen client ⟨"invest"⟩ ⟨"svc:desk:1"⟩ = true → client = ⟨"desk"⟩ := by
  have hnew : Grants.new sampleGrants = .ok ⟨sampleGrants, sampleGrants_partition⟩ :=
    Grants.new_ok_iff.mpr rfl
  have hmay : Grants.mayOpen ⟨sampleGrants, sampleGrants_partition⟩ ⟨"desk"⟩ ⟨"invest"⟩
      ⟨"svc:desk:1"⟩ = true := by decide
  obtain ⟨honly, -, -⟩ := grants_partition_scope_accounts.1 _ _ hnew
  exact ⟨_, hnew, hmay, fun client h => honly _ _ _ _ h hmay⟩

end Banking
