import Rebac.Client.Basic
import Rebac.Question.Answer
import Rebac.Question.Body

set_option autoImplicit false

/-! # Single questions -/

namespace Rebac

namespace Prepared

def checkCall (p : Prepared) (q : Question) : Call :=
  p.call "check" (Body.check q p.modelId p.consistency)

def objectsCall (p : Prepared) (q : ObjectsQuestion) : Call :=
  p.call "list-objects" (Body.listObjects q p.modelId p.consistency)

end Prepared

namespace Client

open Dispatch

def check (c : Client) (q : Question) (o : RequestOptions) : Program Bool Bool :=
  match c.prepare o with
  | .error e => .refuse (.validation e)
  | .ok p =>
    .round (p.single (p.checkCall q) (Answer.ofOutcome Answer.check)) fun answers =>
      let allowed := answers.any id
      .done (.ok allowed) [.checked allowed]

def listObjects (c : Client) (q : ObjectsQuestion) (o : RequestOptions) :
    Program (List String) (List String) :=
  match c.prepare o with
  | .error e => .refuse (.validation e)
  | .ok p =>
    .round (p.single (p.objectsCall q) (Answer.ofOutcome Answer.objects)) fun answers =>
      let objects := answers.flatten
      .done (.ok objects) [.objectsListed objects.length]

end Client

end Rebac
