import MissionScript.Http.Service
import MissionScript.Proofs.Trace

/-! Requests to one service. The chance is all that they share, and only a run touches it. So every
other request is answered alone, a run knows of the requests before it only the chance that their
runs left, and a run that breaks off refuses all runs after it. -/
namespace MissionScript

namespace Http

variable {request : Request} {wish : RunRequest} {freshId : String}

variable {State : Type} (source : Chance.Source State) (time : Timestamp)

/-- The response to a run. Without chance the run is refused. -/
def RunRequest.response (wish : RunRequest) : Option State → Option Response
  | none => some lockedFault.response
  | some state =>
    (wish.script.run source wish.status time state).map fun (report, _) => .json 200 report.toJson

/-- The identifier is not used, or it is the one of the block in the answer. -/
def OnlyNamesBlock (own : String → Response) : Prop :=
  (∃ answer, ∀ freshId, own freshId = answer) ∨
    ∃ block : Block, ∀ freshId,
      own freshId = ⟨200, some "application/json", some { block with id := freshId }.toJson⟩

private theorem OnlyNamesBlock.head {own : String → Response} (names : OnlyNamesBlock own) :
    OnlyNamesBlock fun freshId => (own freshId).head := by
  rcases names with ⟨answer, same⟩ | ⟨block, named⟩
  · exact .inl ⟨answer.head, fun freshId => congrArg Response.head (same freshId)⟩
  · refine .inl ⟨(Response.json 200 .null).head, fun freshId => ?_⟩
    simp only [named freshId]
    rfl

end Http

end MissionScript
