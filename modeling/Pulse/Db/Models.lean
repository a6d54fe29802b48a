import Pulse.Lib.Relational

/-!
# The tables of `db/models.py`

Every table of an organisation's schema, with its primary key, its foreign keys and its unique
constraints. Of the columns, those that a constraint names have a constructor; the others go
by their name.
-/

namespace Pulse.Db

open Lib (ForeignKey Schema)

inductive Table
  | prompt | call | rawFragment | event | utterance | turn | metric | metricDef | media
  | ingestRun | annotation | label | transcript | tenantSettings | judgment | callEmbedding
  | cluster | callCluster | tombstone | organization | appUser | membership | agent
  | conversation | chatMessage | agentScript | agentGuardrail | agentAccess | ingestToken
  | audioDiscrepancy | agentAudioConfig | agentOtlpMapping | agentIntegrationManifest
  | agentParamsUpload | callParams | refreshToken | backfillJob
  deriving DecidableEq, Repr

inductive Column
  | id | callId | promptId | orgId | userId | agentId | membershipId | conversationId
  | createdBy | uploadId | externalCallId | templateSha256 | turnIndex | name | metricVersion
  | kind | sha256 | source | bodySha256 | field | lever | clusterKey | slug | email | seq
  | version | callKey
  | other (name : String)
  deriving DecidableEq, Repr

/-- A column value; of the types that no constraint names, the text is kept. -/
inductive Value
  | text (s : String)
  | int (i : Int)
  deriving DecidableEq, Repr

def foreignKeys : List (ForeignKey Table Column) := [
  ⟨.call, .promptId, .prompt⟩,
  ⟨.rawFragment, .callId, .call⟩,
  ⟨.event, .callId, .call⟩,
  ⟨.utterance, .callId, .call⟩,
  ⟨.turn, .callId, .call⟩,
  ⟨.metric, .callId, .call⟩,
  ⟨.media, .callId, .call⟩,
  ⟨.ingestRun, .callId, .call⟩,
  ⟨ Table.annotation, .callId, .call⟩,
  ⟨.label, .callId, .call⟩,
  ⟨.transcript, .callId, .call⟩,
  ⟨.judgment, .callId, .call⟩,
  ⟨.callEmbedding, .callId, .call⟩,
  ⟨.callCluster, .callId, .call⟩,
  ⟨.membership, .orgId, .organization⟩,
  ⟨.membership, .userId, .appUser⟩,
  ⟨.agent, .orgId, .organization⟩,
  ⟨.conversation, .createdBy, .appUser⟩,
  ⟨.conversation, .callId, .call⟩,
  ⟨.chatMessage, .conversationId, .conversation⟩,
  ⟨.agentScript, .agentId, .agent⟩,
  ⟨.agentScript, .promptId, .prompt⟩,
  ⟨.agentScript, .createdBy, .appUser⟩,
  ⟨.agentGuardrail, .agentId, .agent⟩,
  ⟨.agentGuardrail, .promptId, .prompt⟩,
  ⟨.agentGuardrail, .createdBy, .appUser⟩,
  ⟨.agentAccess, .membershipId, .membership⟩,
  ⟨.agentAccess, .agentId, .agent⟩,
  ⟨.ingestToken, .orgId, .organization⟩,
  ⟨.ingestToken, .agentId, .agent⟩,
  ⟨.audioDiscrepancy, .callId, .call⟩,
  ⟨.agentAudioConfig, .agentId, .agent⟩,
  ⟨.agentOtlpMapping, .agentId, .agent⟩,
  ⟨.agentIntegrationManifest, .agentId, .agent⟩,
  ⟨.agentParamsUpload, .agentId, .agent⟩,
  ⟨.callParams, .agentId, .agent⟩,
  ⟨.callParams, .uploadId, .agentParamsUpload⟩,
  ⟨.refreshToken, .userId, .appUser⟩]

def uniques : List (Table × List Column) := [
  (.prompt, [.templateSha256]),
  (.call, [.externalCallId]),
  (.turn, [.callId, .turnIndex]),
  (.metric, [.callId, .name, .metricVersion]),
  (.media, [.callId, .kind, .sha256]),
  ( Table.annotation, [.callId, .kind, .source, .bodySha256]),
  (.transcript, [.callId]),
  (.judgment, [.callId]),
  (.callEmbedding, [.callId, .field]),
  (.cluster, [.agentId, .lever, .clusterKey]),
  (.callCluster, [.callId, .lever]),
  (.organization, [.slug]),
  (.appUser, [.email]),
  (.membership, [.orgId, .userId]),
  (.agent, [.orgId, .slug]),
  (.chatMessage, [.conversationId, .seq]),
  (.agentScript, [.agentId, .version]),
  (.agentGuardrail, [.agentId, .version]),
  (.agentAccess, [.membershipId, .agentId]),
  (.agentAudioConfig, [.agentId]),
  (.agentOtlpMapping, [.agentId]),
  (.agentIntegrationManifest, [.agentId]),
  (.callParams, [.agentId, .callKey])]

/-- `Base.metadata` -/
def metadata : Schema Table Column where
  key t := if t = .tombstone then .callId else .id
  foreignKeys := foreignKeys
  uniques := uniques

abbrev Row := Lib.Row Column Value

/-- One organisation's schema. -/
abbrev OrgDb := Lib.Database metadata Value

end Pulse.Db
