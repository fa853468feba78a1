import Scaffold.Hook.Host
import Scaffold.Hook.Words

namespace Scaffold.Hook

def commandWords (command : String) : Except Failure (List String) :=
  match words command with
  | .error f => .error (.hook command (.unparsable f.text))
  | .ok [] => .error (.hook command .noProgram)
  | .ok ws => .ok ws

def programPath (program : String) (root : Path) : String :=
  let p := Path.ofString program
  let parts := p.names.length + if p.isAbsolute then 1 else 0
  if program.toList.head? = some '.' ∨ 1 < parts then (root.join p).text else program

def run (command : String) (root cwd : Path) (vars : Bindings String) : HostAction Unit :=
  fun h => match commandWords command with
    | .error e => (.error e, h)
    | .ok ws =>
      let args := (programPath (ws.headD "") root) :: ws.tail
      match h.launch ⟨args, cwd, h.env.merge vars⟩ with
      | (.notStarted reason, h) => (.error (.hook command (.notStarted reason)), h)
      | (.exited code stderr, h) =>
        if code = 0 then (.ok (), h) else (.error (.hook command (.exited code stderr)), h)

end Scaffold.Hook
