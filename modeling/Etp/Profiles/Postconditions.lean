import Etp.Lib.Result
import Etp.Lib.Table

/-!
# Committed and observed postconditions

The part of the profile validator that compares what an execution was to bring about with
what was observed of it: `validatePostconditions`, and the sections of `validateHttp` and
`validateKubernetes` on the observation and the reconciliation, which call it.  Documents
have the shape that their schemas give them.  The sections of the two validators on the
other documents come first; they can only turn a vector down, and are a parameter here.

The comparison walks the observed list.  It covers the committed one exactly when no key
is observed twice.
-/

namespace Etp.Profiles

/-- `class ProfileError` -/
structure ProfileError where
  code : String
  message : String
deriving DecidableEq

/-- `assert(condition, code, message)` -/
def require (condition : Prop) [Decidable condition] (code message : String) :
    Except ProfileError Unit := rejectIf (¬condition) ⟨code, message⟩

@[simp] theorem require_eq_ok {condition : Prop} [Decidable condition] {code message : String}
    {u : Unit} : require condition code message = .ok u ↔ condition := by
  rw [require, rejectIf_eq_ok, not_not]

/-! ## Postconditions -/

inductive Operator where
  | equals
  | absent
  | present
deriving DecidableEq, Repr

/-- An entry of `expected_effect.postconditions`.  The HTTP profile names its entries, the
Kubernetes profile gives them a path. -/
structure Postcondition where
  name : Option String
  path : Option String
  operator : Operator
  expectedSha256 : Option String
deriving DecidableEq

/-- An entry of the `postconditions` of an observation or a reconciliation. -/
structure Observed where
  name : Option String
  path : Option String
  established : Bool
  observedSha256 : Option String
deriving DecidableEq

/-- `entry.name ?? entry.path` -/
def Postcondition.key (entry : Postcondition) : Option String := entry.name.or entry.path

def Observed.key (entry : Observed) : Option String := entry.name.or entry.path

/-- A key in a template string. -/
def keyText : Option String → String
  | some key => key
  | none => "undefined"

/-- `new Map(expected.map((entry) => [key, entry]))`, as its `get`: the last entry counts. -/
def expectedByName (expected : List Postcondition) (key : Option String) : Option Postcondition :=
  lookupBy Postcondition.key key expected.reverse

/-- The `size` of that map. -/
def expectedByNameSize (expected : List Postcondition) : Nat :=
  (expected.map Postcondition.key).dedup.length

/-- The body of the first loop. -/
def checkCommitment (code : String) (commitment : Postcondition) : Except ProfileError Unit :=
  if commitment.operator = .equals then
    require commitment.expectedSha256.isSome (code ++ "_POSTCONDITION_COMMITMENT")
      "equals requires a committed digest"
  else
    require (commitment.expectedSha256 = none) (code ++ "_POSTCONDITION_COMMITMENT")
      "a presence test requires a null digest"

/-- The body of the second loop. -/
def checkObserved (code : String) (expected : List Postcondition) (actual : Observed) :
    Except ProfileError Unit := do
  let key := actual.key
  let commitment ← okOr (expectedByName expected key)
    ⟨code ++ "_POSTCONDITION_MISMATCH", "postcondition " ++ keyText key ++ " was not established"⟩
  require actual.established (code ++ "_POSTCONDITION_MISMATCH")
    ("postcondition " ++ keyText key ++ " was not established")
  if commitment.operator = .equals then
    require (actual.observedSha256 = commitment.expectedSha256)
      (code ++ "_POSTCONDITION_MISMATCH") ("postcondition " ++ keyText key ++ " digest mismatch")
  else
    require (actual.observedSha256 = none) (code ++ "_POSTCONDITION_MISMATCH")
      ("presence postcondition " ++ keyText key ++ " requires a null digest")

/-- `for (const entry of entries) { check(entry) }` -/
def forEach {α : Type} (check : α → Except ProfileError Unit) : List α → Except ProfileError Unit
  | [] => .ok ()
  | entry :: entries => do
      check entry
      forEach check entries

def validatePostconditions (expected : List Postcondition) (observed : List Observed)
    (code : String) : Except ProfileError Unit := do
  require (expectedByNameSize expected = expected.length) (code ++ "_POSTCONDITION_DUPLICATE")
    "postconditions must be unique"
  forEach (checkCommitment code) expected
  require (observed.length = expected.length) (code ++ "_POSTCONDITION_MISMATCH")
    "observation must include every committed postcondition"
  forEach (checkObserved code expected) observed

/-! ## What is accepted -/

/-- The observation of a committed postcondition. -/
structure Establishes (commitment : Postcondition) (actual : Observed) : Prop where
  key : actual.key = commitment.key
  established : actual.established = true
  digest : actual.observedSha256 =
    if commitment.operator = .equals then commitment.expectedSha256 else none

/-- Every committed postcondition was observed. -/
def Covered (expected : List Postcondition) (observed : List Observed) : Prop :=
  ∀ commitment ∈ expected, ∃ actual ∈ observed, Establishes commitment actual

/-- No key is observed twice. -/
def DistinctKeys (observed : List Observed) : Prop := (observed.map Observed.key).Nodup

/-- A list of commitments that can be observed. -/
structure Committed (expected : List Postcondition) : Prop where
  distinct : (expected.map Postcondition.key).Nodup
  digests : ∀ commitment ∈ expected,
    commitment.expectedSha256.isSome ↔ commitment.operator = .equals

/-- Each entry is the observation of some commitment, and there are as many. -/
structure Matches (expected : List Postcondition) (observed : List Observed) : Prop where
  length : observed.length = expected.length
  each : ∀ actual ∈ observed, ∃ commitment ∈ expected, Establishes commitment actual

section Specs

variable {expected : List Postcondition} {observed : List Observed} {code : String}

theorem forEach_eq_ok {α : Type} {check : α → Except ProfileError Unit} {entries : List α}
    {u : Unit} : forEach check entries = .ok u ↔ ∀ entry ∈ entries, check entry = .ok () := by
  induction entries with
  | nil => simp [forEach]
  | cons entry entries ih =>
      simp only [forEach, bind_eq_ok, ih, List.forall_mem_cons]
      constructor
      · rintro ⟨⟨⟩, h⟩
        exact h
      · intro h
        exact ⟨(), h⟩

theorem expectedByNameSize_eq_length :
    expectedByNameSize expected = expected.length ↔ (expected.map Postcondition.key).Nodup := by
  constructor
  · intro h
    have hsub := List.dedup_sublist (expected.map Postcondition.key)
    have heq := hsub.eq_of_length (by rw [List.length_map]; exact h)
    rw [← heq]
    exact List.nodup_dedup _
  · intro h
    rw [expectedByNameSize, h.dedup, List.length_map]

/-- With distinct keys, the map finds the entry of a key. -/
theorem expectedByName_eq_some (h : (expected.map Postcondition.key).Nodup) {key : Option String}
    {commitment : Postcondition} :
    expectedByName expected key = some commitment ↔
      commitment ∈ expected ∧ commitment.key = key := by
  have hunique : UniqueBy Postcondition.key expected.reverse := by
    rwa [UniqueBy, List.map_reverse, List.nodup_reverse]
  rw [expectedByName, hunique.lookupBy_eq_some_iff, List.mem_reverse]

theorem checkCommitment_eq_ok {commitment : Postcondition} {u : Unit} :
    checkCommitment code commitment = .ok u ↔
      (commitment.expectedSha256.isSome ↔ commitment.operator = .equals) := by
  rw [checkCommitment]
  by_cases h : commitment.operator = .equals
  · rw [if_pos h, require_eq_ok, iff_true_right h]
  · rw [if_neg h, require_eq_ok, iff_false_right h, Option.not_isSome_iff_eq_none]

theorem checkObserved_eq_ok (h : (expected.map Postcondition.key).Nodup) {actual : Observed}
    {u : Unit} : checkObserved code expected actual = .ok u ↔
      ∃ commitment ∈ expected, Establishes commitment actual := by
  simp only [checkObserved, bind_eq_ok, okOr_eq_ok, expectedByName_eq_some h, require_eq_ok,
    exists_const]
  constructor
  · rintro ⟨commitment, ⟨hmem, hkey⟩, hestablished, hdigest⟩
    refine ⟨commitment, hmem, hkey.symm, hestablished, ?_⟩
    by_cases hequals : commitment.operator = .equals
    · rw [if_pos hequals, require_eq_ok] at hdigest
      rwa [if_pos hequals]
    · rw [if_neg hequals, require_eq_ok] at hdigest
      rwa [if_neg hequals]
  · rintro ⟨commitment, hmem, hkey, hestablished, hdigest⟩
    refine ⟨commitment, ⟨hmem, hkey.symm⟩, hestablished, ?_⟩
    by_cases hequals : commitment.operator = .equals
    · rw [if_pos hequals] at hdigest
      rwa [if_pos hequals, require_eq_ok]
    · rw [if_neg hequals] at hdigest
      rwa [if_neg hequals, require_eq_ok]

theorem validatePostconditions_eq_ok {u : Unit} :
    validatePostconditions expected observed code = .ok u ↔
      Committed expected ∧ Matches expected observed := by
  simp only [validatePostconditions, bind_eq_ok, require_eq_ok, forEach_eq_ok,
    expectedByNameSize_eq_length, checkCommitment_eq_ok, exists_const]
  constructor
  · rintro ⟨hdistinct, hdigests, hlength, heach⟩
    exact ⟨⟨hdistinct, hdigests⟩, hlength, fun actual hactual ↦
      (checkObserved_eq_ok hdistinct).mp (heach actual hactual)⟩
  · rintro ⟨⟨hdistinct, hdigests⟩, hlength, heach⟩
    exact ⟨hdistinct, hdigests, hlength, fun actual hactual ↦
      (checkObserved_eq_ok hdistinct).mpr (heach actual hactual)⟩

/-- As many observations as commitments cover them exactly when no key is observed twice:
two lists of one length, one of them without repetitions and contained in the other. -/
theorem covered_iff_distinctKeys (hcommitted : Committed expected)
    (hmatches : Matches expected observed) : Covered expected observed ↔ DistinctKeys observed := by
  have hsub : observed.map Observed.key ⊆ expected.map Postcondition.key := by
    intro key hkey
    obtain ⟨actual, hactual, rfl⟩ := List.mem_map.mp hkey
    obtain ⟨commitment, hmem, hestablishes⟩ := hmatches.each actual hactual
    exact List.mem_map.mpr ⟨commitment, hmem, hestablishes.key.symm⟩
  have hlength : (expected.map Postcondition.key).length = (observed.map Observed.key).length := by
    rw [List.length_map, List.length_map, hmatches.length]
  constructor
  · intro hcovered
    have hback : expected.map Postcondition.key ⊆ observed.map Observed.key := by
      intro key hkey
      obtain ⟨commitment, hmem, rfl⟩ := List.mem_map.mp hkey
      obtain ⟨actual, hactual, hestablishes⟩ := hcovered commitment hmem
      exact List.mem_map.mpr ⟨actual, hactual, hestablishes.key⟩
    have hperm := (hcommitted.distinct.subperm hback).perm_of_length_le hlength.ge
    exact hperm.nodup_iff.mp hcommitted.distinct
  · intro hdistinct commitment hmem
    have hperm := (hdistinct.subperm hsub).perm_of_length_le hlength.le
    have hkey : commitment.key ∈ observed.map Observed.key :=
      hperm.mem_iff.mpr (List.mem_map.mpr ⟨commitment, hmem, rfl⟩)
    obtain ⟨actual, hactual, hkey⟩ := List.mem_map.mp hkey
    obtain ⟨other, hother, hestablishes⟩ := hmatches.each actual hactual
    have hsame : other = commitment :=
      List.inj_on_of_nodup_map hcommitted.distinct hother hmem (hestablishes.key.symm.trans hkey)
    rw [hsame] at hestablishes
    exact ⟨actual, hactual, hestablishes⟩

end Specs

/-! ## The lifecycle of a vector -/

/-- `validateReceiptLifecycle`, of the outcome of the receipt, the transport outcome of the
observation and the presence of a reconciliation. -/
def validateReceiptLifecycle (expectedReceiptOutcome transportOutcome : String)
    (hasReconciliation : Bool) : Except ProfileError Unit := do
  require (expectedReceiptOutcome ∈ ["succeeded", "unknown"]) "VECTOR_OUTCOME"
    "expected receipt outcome must be succeeded or unknown"
  require (expectedReceiptOutcome = "unknown" ↔ hasReconciliation) "RECEIPT_LIFECYCLE"
    "reconciliation evidence must be present if and only if the receipt outcome is unknown"
  if expectedReceiptOutcome = "unknown" then
    require (transportOutcome ∈ ["lost", "unverifiable"]) "RECEIPT_LIFECYCLE"
      "an unknown receipt requires a lost or unverifiable transport response"
  else
    require (transportOutcome = "response") "RECEIPT_LIFECYCLE"
      "a succeeded receipt requires a transport response"

structure Attribution where
  kind : String
  value : Option String
deriving DecidableEq

/-! ## The HTTP profile -/

structure HttpExpectedEffect where
  allowedStatusClasses : List Nat
  postconditions : List Postcondition
  responseBodySha256 : Option String

structure HttpDispatchEvidence where
  attemptId : String
  firstRequestByteAtMs : Nat

structure HttpObservationEvidence where
  attemptId : String
  observedAtMs : Nat
  transportOutcome : String
  status : Option Nat
  responseSha256 : Option String
  applicationTransactionId : Option String
  postconditions : List Observed

structure HttpReconciliationEvidence where
  attemptId : String
  observedAtMs : Nat
  attribution : Attribution
  postconditions : List Observed

structure HttpVector where
  expectedReceiptOutcome : String
  expectedEffect : HttpExpectedEffect
  dispatchEvidence : HttpDispatchEvidence
  observationEvidence : HttpObservationEvidence
  reconciliationEvidence : Option HttpReconciliationEvidence

/-- The section of `validateHttp` on the observation. -/
def validateHttpObservation (expected : HttpExpectedEffect) (dispatch : HttpDispatchEvidence)
    (observation : HttpObservationEvidence) : Except ProfileError Unit := do
  require (observation.attemptId = dispatch.attemptId) "HTTP_ATTEMPT_MISMATCH"
    "observation attempt mismatch"
  require (observation.observedAtMs > dispatch.firstRequestByteAtMs) "HTTP_OBSERVATION_ORDER"
    "observation must follow dispatch"
  if observation.transportOutcome = "response" then do
    let status ← okOr observation.status ⟨"PROFILE_SCHEMA", "response evidence is incomplete"⟩
    let response ← okOr observation.responseSha256
      ⟨"PROFILE_SCHEMA", "response evidence is incomplete"⟩
    require (status / 100 ∈ expected.allowedStatusClasses) "HTTP_STATUS_UNCOMMITTED"
      "response status class was not committed"
    -- An empty text is no committed digest either.
    require (∀ digest ∈ expected.responseBodySha256, digest ≠ "" → response = digest)
      "HTTP_RESPONSE_MISMATCH" "response digest mismatch"
    validatePostconditions expected.postconditions observation.postconditions "HTTP"
  else
    require (observation.status = none ∧ observation.responseSha256 = none ∧
        observation.applicationTransactionId = none ∧ observation.postconditions.length = 0)
      "HTTP_AMBIGUOUS_EVIDENCE"
      "ambiguous transport evidence must not include response-bound evidence"

/-- The section of `validateHttp` on the reconciliation. -/
def validateHttpReconciliation (expected : HttpExpectedEffect) (dispatch : HttpDispatchEvidence)
    (observation : HttpObservationEvidence) (reconciliation : HttpReconciliationEvidence) :
    Except ProfileError Unit := do
  require (reconciliation.attemptId = dispatch.attemptId ∧
      reconciliation.observedAtMs ≥ observation.observedAtMs)
    "HTTP_RECONCILIATION_ORDER" "reconciliation identity or time mismatch"
  require (reconciliation.attribution.kind ≠ "none" ∧ reconciliation.attribution.value.isSome)
    "HTTP_RECONCILIATION_UNATTRIBUTED" "reconciliation requires attribution bound to the target"
  validatePostconditions expected.postconditions reconciliation.postconditions "HTTP"

/-- `validateHttp`, with what its checks of the other documents return. -/
def validateHttp (documents : Except ProfileError Unit) (v : HttpVector) :
    Except ProfileError Unit := do
  validateReceiptLifecycle v.expectedReceiptOutcome v.observationEvidence.transportOutcome
    v.reconciliationEvidence.isSome
  documents
  validateHttpObservation v.expectedEffect v.dispatchEvidence v.observationEvidence
  match v.reconciliationEvidence with
  | none => .ok ()
  | some reconciliation =>
      validateHttpReconciliation v.expectedEffect v.dispatchEvidence v.observationEvidence
        reconciliation

/-! ## The Kubernetes profile -/

structure KubernetesDispatchEvidence where
  attemptId : String
  firstPatchByteAtMs : Nat

structure KubernetesObservationEvidence where
  attemptId : String
  observedAtMs : Nat
  transportOutcome : String
  httpStatus : Option Nat
  uid : Option String
  resourceVersion : Option String
  objectSha256 : Option String
  attribution : Option Attribution
  postconditions : List Observed

structure KubernetesReconciliationEvidence where
  attemptId : String
  observedAtMs : Nat
  uid : String
  attribution : Attribution
  postconditions : List Observed

structure KubernetesVector where
  expectedReceiptOutcome : String
  /-- `pre_state.uid` -/
  preUid : String
  /-- `expected_effect.postconditions` -/
  postconditions : List Postcondition
  dispatchEvidence : KubernetesDispatchEvidence
  observationEvidence : KubernetesObservationEvidence
  reconciliationEvidence : Option KubernetesReconciliationEvidence

/-- The section of `validateKubernetes` on the observation. -/
def validateKubernetesObservation (expected : List Postcondition) (preUid : String)
    (dispatch : KubernetesDispatchEvidence) (observation : KubernetesObservationEvidence) :
    Except ProfileError Unit := do
  require (observation.attemptId = dispatch.attemptId) "K8S_ATTEMPT_MISMATCH"
    "observation attempt mismatch"
  require (observation.observedAtMs > dispatch.firstPatchByteAtMs) "K8S_OBSERVATION_ORDER"
    "observation must follow dispatch"
  if observation.transportOutcome = "response" then do
    require (∃ status ∈ observation.httpStatus, 200 ≤ status ∧ status ≤ 299) "K8S_RESPONSE_STATUS"
      "a succeeded Kubernetes response requires HTTP status 200 through 299"
    require (observation.uid = some preUid) "K8S_OBSERVED_UID_MISMATCH" "response UID differs"
    require (∃ version ∈ observation.resourceVersion, version ≠ "") "K8S_OBSERVED_RV"
      "response resourceVersion is missing"
    validatePostconditions expected observation.postconditions "K8S"
  else
    require (observation.httpStatus = none ∧ observation.uid = none ∧
        observation.resourceVersion = none ∧ observation.objectSha256 = none ∧
        observation.attribution = none ∧ observation.postconditions.length = 0)
      "K8S_AMBIGUOUS_EVIDENCE"
      "ambiguous transport evidence must not include response-bound evidence"

/-- The section of `validateKubernetes` on the reconciliation. -/
def validateKubernetesReconciliation (expected : List Postcondition) (preUid : String)
    (dispatch : KubernetesDispatchEvidence) (observation : KubernetesObservationEvidence)
    (reconciliation : KubernetesReconciliationEvidence) : Except ProfileError Unit := do
  require (reconciliation.attemptId = dispatch.attemptId ∧
      reconciliation.observedAtMs ≥ observation.observedAtMs)
    "K8S_RECONCILIATION_ORDER" "reconciliation identity or time mismatch"
  require (reconciliation.uid = preUid) "K8S_RECONCILIATION_UID" "reconciliation UID differs"
  require (reconciliation.attribution.kind ≠ "none" ∧ reconciliation.attribution.value.isSome)
    "K8S_RECONCILIATION_UNATTRIBUTED" "reconciliation requires audit or marker attribution"
  validatePostconditions expected reconciliation.postconditions "K8S"

/-- `validateKubernetes`, with what its checks of the other documents return. -/
def validateKubernetes (documents : Except ProfileError Unit) (v : KubernetesVector) :
    Except ProfileError Unit := do
  validateReceiptLifecycle v.expectedReceiptOutcome v.observationEvidence.transportOutcome
    v.reconciliationEvidence.isSome
  documents
  validateKubernetesObservation v.postconditions v.preUid v.dispatchEvidence v.observationEvidence
  match v.reconciliationEvidence with
  | none => .ok ()
  | some reconciliation =>
      validateKubernetesReconciliation v.postconditions v.preUid v.dispatchEvidence
        v.observationEvidence reconciliation

/-! ## When the committed postconditions were all observed -/

/-- The lists in which a vector reports postconditions as established: of a succeeded
response, and of a reconciliation. -/
def HttpVector.reports (v : HttpVector) : List (List Observed) :=
  (if v.expectedReceiptOutcome = "succeeded" then [v.observationEvidence.postconditions] else []) ++
    (v.reconciliationEvidence.map HttpReconciliationEvidence.postconditions).toList

def KubernetesVector.reports (v : KubernetesVector) : List (List Observed) :=
  (if v.expectedReceiptOutcome = "succeeded" then [v.observationEvidence.postconditions] else []) ++
    (v.reconciliationEvidence.map KubernetesReconciliationEvidence.postconditions).toList

section Reports

variable {documents : Except ProfileError Unit} {expected : List Postcondition}
  {observed : List Observed} {code : String}

theorem transportOutcome_of_succeeded {outcome transport : String} {hasReconciliation : Bool}
    {u : Unit} (h : validateReceiptLifecycle outcome transport hasReconciliation = .ok u)
    (hsucceeded : outcome = "succeeded") : transport = "response" := by
  subst hsucceeded
  simp only [validateReceiptLifecycle, bind_eq_ok, require_eq_ok] at h
  obtain ⟨_, -, _, -, h⟩ := h
  rw [if_neg (by decide), require_eq_ok] at h
  exact h

theorem covered_iff_of_validatePostconditions
    (h : validatePostconditions expected observed code = .ok ()) :
    Covered expected observed ↔ DistinctKeys observed := by
  obtain ⟨hcommitted, hmatches⟩ := validatePostconditions_eq_ok.mp h
  exact covered_iff_distinctKeys hcommitted hmatches

theorem validatePostconditions_of_http {v : HttpVector} (h : validateHttp documents v = .ok ())
    (hobserved : observed ∈ v.reports) :
    validatePostconditions v.expectedEffect.postconditions observed "HTTP" = .ok () := by
  simp only [validateHttp, bind_eq_ok] at h
  obtain ⟨_, hlifecycle, _, -, _, hobservation, hreconciliation⟩ := h
  rcases List.mem_append.mp hobserved with hobserved | hobserved
  · split at hobserved
    · rename_i hsucceeded
      rw [List.mem_singleton.mp hobserved]
      have hresponse := transportOutcome_of_succeeded hlifecycle hsucceeded
      simp only [validateHttpObservation, hresponse, if_true, bind_eq_ok] at hobservation
      obtain ⟨_, -, _, -, _, -, _, -, _, -, _, -, hpost⟩ := hobservation
      exact hpost
    · cases hobserved
  · rw [Option.mem_toList, Option.map_eq_some_iff] at hobserved
    obtain ⟨reconciliation, hsome, rfl⟩ := hobserved
    simp only [hsome, validateHttpReconciliation, bind_eq_ok] at hreconciliation
    obtain ⟨_, -, _, -, hpost⟩ := hreconciliation
    exact hpost

theorem validatePostconditions_of_kubernetes {v : KubernetesVector}
    (h : validateKubernetes documents v = .ok ()) (hobserved : observed ∈ v.reports) :
    validatePostconditions v.postconditions observed "K8S" = .ok () := by
  simp only [validateKubernetes, bind_eq_ok] at h
  obtain ⟨_, hlifecycle, _, -, _, hobservation, hreconciliation⟩ := h
  rcases List.mem_append.mp hobserved with hobserved | hobserved
  · split at hobserved
    · rename_i hsucceeded
      rw [List.mem_singleton.mp hobserved]
      have hresponse := transportOutcome_of_succeeded hlifecycle hsucceeded
      simp only [validateKubernetesObservation, hresponse, if_true, bind_eq_ok] at hobservation
      obtain ⟨_, -, _, -, _, -, _, -, _, -, hpost⟩ := hobservation
      exact hpost
    · cases hobserved
  · rw [Option.mem_toList, Option.map_eq_some_iff] at hobserved
    obtain ⟨reconciliation, hsome, rfl⟩ := hobserved
    simp only [hsome, validateKubernetesReconciliation, bind_eq_ok] at hreconciliation
    obtain ⟨_, -, _, -, _, -, hpost⟩ := hreconciliation
    exact hpost

/-- An accepted list of observations covers the commitments exactly when no key is observed
twice, and so does every report of an accepted vector. -/
theorem accepted_covered_iff (expected : List Postcondition) (observed : List Observed)
    (code : String) :
    ((validatePostconditions expected observed code = .ok () → Covered expected observed) ↔
      (Committed expected → Matches expected observed → DistinctKeys observed)) ∧
    (∀ documents v, validateHttp documents v = .ok () → ∀ observed ∈ v.reports,
      (Covered v.expectedEffect.postconditions observed ↔ DistinctKeys observed)) ∧
    ∀ documents v, validateKubernetes documents v = .ok () → ∀ observed ∈ v.reports,
      (Covered v.postconditions observed ↔ DistinctKeys observed) := by
  refine ⟨?_, fun documents v h observed hobserved ↦ ?_, fun documents v h observed hobserved ↦ ?_⟩
  · rw [validatePostconditions_eq_ok, and_imp]
    exact forall_congr' fun hcommitted ↦ forall_congr' fun hmatches ↦
      covered_iff_distinctKeys hcommitted hmatches
  · exact covered_iff_of_validatePostconditions (validatePostconditions_of_http h hobserved)
  · exact covered_iff_of_validatePostconditions (validatePostconditions_of_kubernetes h hobserved)

end Reports

/-- Two commitments, and the observation of the first of them twice. -/
def twoCommitted : List Postcondition := [
  ⟨some "widget-state", none, .equals,
    some "sha256:cccccccccccccccccccccccccccccccccccccccccccccccccccccccccccccccc"⟩,
  ⟨some "audit-entry", none, .present, none⟩]

def observedTwice : List Observed :=
  let entry : Observed := ⟨some "widget-state", none, true,
    some "sha256:cccccccccccccccccccccccccccccccccccccccccccccccccccccccccccccccc"⟩
  [entry, entry]

/-- The observation of the first commitment, twice, is accepted for both. -/
theorem accepted_observedTwice :
    validatePostconditions twoCommitted observedTwice "HTTP" = .ok () ∧
      ¬Covered twoCommitted observedTwice := by
  refine ⟨by decide, fun h ↦ ?_⟩
  obtain ⟨actual, hactual, hestablishes⟩ :=
    h ⟨some "audit-entry", none, .present, none⟩ (by decide)
  have hkey := hestablishes.key
  simp only [observedTwice, List.mem_cons, List.not_mem_nil, or_false, or_self] at hactual
  subst hactual
  revert hkey
  decide

end Etp.Profiles
