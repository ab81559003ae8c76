import Mathlib

/-!
# Opaque identifiers

Every identifier of the domain is a UUID under a type-specific prefix.  The
source generates one type per identifier kind with a macro; here the kind is
a parameter of one type.
-/

namespace SharedContext

abbrev Uuid := BitVec 128

namespace Uuid

/-- The lower-case hexadecimal digit at a position counted from the left. -/
def hexDigit (uuid : Uuid) (position : Nat) : Char :=
  Nat.digitChar ((uuid >>> (4 * (31 - position))).toNat % 16)

def hyphenated (uuid : Uuid) : String :=
  let digits (first count : Nat) : String :=
    String.ofList ((List.range' first count).map uuid.hexDigit)
  String.intercalate "-" [digits 0 8, digits 8 4, digits 12 4, digits 16 4, digits 20 12]

end Uuid

inductive IdKind
  | space
  | reference
  | task
  | taskSession
  | externalSession
  | taskIntentRevision
  | agentCheckpoint
  | checkpointClaim
  | candidateBuild
  | proposedSpaceGroup
  | workEpisode
  | candidate
  | submission
  | confirmation
  | spaceAssociation
  | spaceRecommendation
  | context
  | revision
  | event
  | publication
  | evidence
  | review
  | conflict
  | resolution
  deriving DecidableEq, Repr

/-- The required human-readable prefix of each kind. -/
def IdKind.prefixText : IdKind → String
  | .space => "spc_"
  | .reference => "ref_"
  | .task => "tsk_"
  | .taskSession => "tss_"
  | .externalSession => "xss_"
  | .taskIntentRevision => "tir_"
  | .agentCheckpoint => "ckp_"
  | .checkpointClaim => "clm_"
  | .candidateBuild => "bld_"
  | .proposedSpaceGroup => "psg_"
  | .workEpisode => "wep_"
  | .candidate => "cnd_"
  | .submission => "sub_"
  | .confirmation => "cfm_"
  | .spaceAssociation => "asc_"
  | .spaceRecommendation => "rec_"
  | .context => "ctx_"
  | .revision => "rev_"
  | .event => "evt_"
  | .publication => "pub_"
  | .evidence => "evd_"
  | .review => "rvw_"
  | .conflict => "cnf_"
  | .resolution => "rsl_"

/-- An opaque identifier: a UUID tagged with its kind. -/
@[ext]
structure OpaqueId (kind : IdKind) where
  uuid : Uuid
  deriving DecidableEq, Repr

namespace OpaqueId

variable {kind : IdKind}

theorem uuid_injective : Function.Injective (uuid : OpaqueId kind → Uuid) :=
  fun _ _ equal => OpaqueId.ext equal

/-- Identifiers are ordered by their UUID. -/
instance : LinearOrder (OpaqueId kind) :=
  LinearOrder.lift' (fun id => id.uuid.toNat)
    (fun _ _ equal => uuid_injective (BitVec.eq_of_toNat_eq equal))

instance : ToString (OpaqueId kind) where
  toString id := kind.prefixText ++ id.uuid.hyphenated

end OpaqueId

abbrev SpaceId := OpaqueId .space
abbrev ReferenceId := OpaqueId .reference
abbrev TaskId := OpaqueId .task
abbrev TaskSessionId := OpaqueId .taskSession
abbrev ExternalSessionId := OpaqueId .externalSession
abbrev TaskIntentRevisionId := OpaqueId .taskIntentRevision
abbrev AgentCheckpointId := OpaqueId .agentCheckpoint
abbrev CheckpointClaimId := OpaqueId .checkpointClaim
abbrev CandidateBuildId := OpaqueId .candidateBuild
abbrev ProposedSpaceGroupKey := OpaqueId .proposedSpaceGroup
abbrev WorkEpisodeId := OpaqueId .workEpisode
abbrev CandidateId := OpaqueId .candidate
abbrev SubmissionId := OpaqueId .submission
abbrev ConfirmationId := OpaqueId .confirmation
abbrev SpaceAssociationId := OpaqueId .spaceAssociation
abbrev SpaceRecommendationId := OpaqueId .spaceRecommendation
abbrev ContextId := OpaqueId .context
abbrev RevisionId := OpaqueId .revision
abbrev EventId := OpaqueId .event
abbrev PublicationId := OpaqueId .publication
abbrev EvidenceId := OpaqueId .evidence
abbrev ReviewId := OpaqueId .review
abbrev ConflictId := OpaqueId .conflict
abbrev ResolutionId := OpaqueId .resolution

/-- User-visible identity of a source repository; the exact spelling is the
identity. -/
structure RepositoryId where
  text : String
  deriving DecidableEq, Repr

end SharedContext
