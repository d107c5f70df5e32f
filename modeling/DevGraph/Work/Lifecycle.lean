import DevGraph.Work.Workflows

/-!
# Proposal lifecycle

The acceptance of a proposal by a Decision and its conversion to an Issue, with the
provenance edges that each leaves.
-/

namespace DevGraph.Work

open Lib

/-- Any validation failure of a stored proposal is one lifecycle error. -/
def unreadableProposal (x : Except Error WorkObject) : Except Error WorkObject :=
  match x with
  | .ok w => .ok w
  | .error e =>
    if e.isKeyError || e.isTypeError || e.isValueError then
      .error ⟨.proposalLifecycle, "Proposal has unreadable persisted properties"⟩
    else .error e

def getProposal (s : Store) (id : String) : Except Error WorkObject := do
  match ← getNode s (.proposal, id) with
  | some node =>
    unreadableProposal do
      let props ← validateCanonicalWorkObjectProperties (.proposal, id) node.properties
        node.archived true
      build (.proposal, id) props node.archived
  | none => throw (Error.mk .proposalLifecycle ("missing Proposal: " ++ id))

def acceptanceDecisionEdges (s : Store) (id : String) : Except Error (List EdgeRecord) := do
  let edges ← boundedEdges "Decision provenance validation budget exceeded" s .acceptedByDecision
  return edges.filter fun e => e.source = (.proposal, id)

def validateDecisionNode (key : Key) (node : Node) (expected : Option WorkObject) :
    Except Error Unit :=
  let malformed := Error.mk .proposalLifecycle "malformed Decision provenance"
  if key.1 ≠ .decision ∨ node.archived = true then throw malformed
  else match validateCanonicalWorkObjectProperties key node.properties node.archived true with
    | .ok canonical =>
      raiseIf (expected.any fun decision => decide (canonical ≠ decision.toNodeProperties))
        malformed
    | .error _ => throw malformed

def upsertDecision (decision : WorkObject) : Tx Unit := do
  match ← reading (getNode · decision.key) with
  | none => do
    let _ ← createNode decision.key decision.toNodeProperties
  | some existing => lift (validateDecisionNode decision.key existing (some decision))

def acceptProposal (id : String) (decision : WorkObject) (now : Datetime) : Tx WorkObject := do
  let proposal ← reading (getProposal · id)
  raiseIf (proposal.archived = true)
    (Error.mk .proposalLifecycle "Archived Proposal cannot be accepted")
  let rejections ← reading (related · .rejectedByDecision proposal.key)
  raiseIf (rejections ≠ [])
    (Error.mk .proposalLifecycle "Rejected Proposal already has Decision provenance")
  let acceptances ← reading (acceptanceDecisionEdges · id)
  raiseIf (acceptances ≠ [])
    (Error.mk .proposalLifecycle "Accepted Proposal already has Decision provenance")
  let accepted ← lift (proposal.withStatus .accepted now)
  transaction do
    upsertDecision decision
    let _ ← updateNode (.proposal, id) accepted.toNodeProperties
    createEdge ⟨(.proposal, id), .acceptedByDecision, decision.key, prop1 .required (.bool true)⟩
  return accepted

def requireAcceptanceDecisionId (s : Store) (id : String) : Except Error String := do
  let lacking := Error.mk .proposalLifecycle
    "Accepted Proposal lacks Decision provenance and cannot convert"
  match ← acceptanceDecisionEdges s id with
  | [] => throw lacking
  | [edge] => do
    raiseIf (edge.target.1 ≠ .decision) lacking
    match ← getNode s (.decision, edge.target.2) with
    | none => throw lacking
    | some node => do
      validateDecisionNode (.decision, edge.target.2) node none
      return edge.target.2
  | _ => throw (Error.mk .proposalLifecycle
      "Accepted Proposal has ambiguous Decision provenance and cannot convert")

def convertAcceptedProposalToIssue (id issueId : String) (now now' : Datetime) :
    Tx WorkObject := do
  let proposal ← reading (getProposal · id)
  raiseIf (proposal.archived = true ∨ proposal.status ≠ .accepted)
    (Error.mk .proposalLifecycle "Only accepted proposals can convert to Issue")
  let decisionId ← reading (requireAcceptanceDecisionId · id)
  let issue ← lift (WorkObject.postInit
    { newObject .issue issueId proposal.title proposal.description now now' with
      artifactIds := proposal.artifactIds
      externalLinkIds := proposal.externalLinkIds
      priority := proposal.priority })
  transaction do
    let _ ← createNode issue.key issue.toNodeProperties
    createEdge ⟨(.proposal, id), .convertedTo, issue.key, prop1 .decisionId (.str decisionId)⟩
    createEdge ⟨issue.key, .conversionDecidedBy, (.decision, decisionId),
      prop1 .sourceProposalId (.str id)⟩
  return issue

end DevGraph.Work
