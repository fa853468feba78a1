import Scaffold.Hook.Host

namespace Scaffold

structure Home where
  root : Path
  deriving DecidableEq

namespace Home

def templatesName : Name := ⟨"templates", by decide⟩

def configName : Name := ⟨"config.json", by decide⟩

def templates (h : Home) : Path := h.root.child templatesName

def configPath (h : Home) : Path := h.root.child configName

def templateName? (name : String) : Option Name :=
  if name = ".." ∨ name.toList.contains '\\' then none else Name.ofString? name

def templateDirectory (h : Home) (name : String) : Except Failure Path :=
  match templateName? name with
  | some n => .ok (h.templates.child n)
  | none => .error (.obstacle (.badTemplateName name))

def accounts : Bindings String := .ofList
  [("root", "/root"), ("daemon", "/usr/sbin"), ("bin", "/bin"), ("sys", "/dev"), ("sync", "/bin"),
    ("games", "/usr/games"), ("man", "/var/cache/man"), ("lp", "/var/spool/lpd"),
    ("mail", "/var/mail"), ("news", "/var/spool/news"), ("uucp", "/var/spool/uucp"),
    ("proxy", "/bin"), ("www-data", "/var/www"), ("backup", "/var/backups"),
    ("list", "/var/list"), ("irc", "/run/ircd"), ("_apt", "/nonexistent"),
    ("nobody", "/nonexistent")]

def splitTilde (s : String) : Option (String × String) :=
  match s.toList with
  | '~' :: cs => some (String.ofList (cs.takeWhile (· ≠ '/')), String.ofList (cs.dropWhile (· ≠ '/')))
  | _ => none

def trimSlashes (s : String) : String :=
  String.ofList (s.toList.reverse.dropWhile (· = '/')).reverse

def homeOf (env : Bindings String) (account : String) : Option String :=
  if account = "" then some ((env.get? "HOME").getD ((accounts.get? "root").getD "/"))
  else accounts.get? account

/-- Puts a home directory in place of a tilde and the account behind it. Of an account that does
not exist nothing is known, and the text stays as it is. -/
def expandTilde (env : Bindings String) (s : String) : String :=
  match splitTilde s with
  | none => s
  | some (account, rest) =>
    match homeOf env account with
    | none => s
    | some home =>
      let t := trimSlashes home ++ rest
      if t = "" then "/" else t

def expandPath (env : Bindings String) (p : Path) : Except Failure Path :=
  match p.isAbsolute, p.names.getLast? with
  | false, some first =>
    if first.1.toList.head? ≠ some '~' then .ok p
    else if first.1.toList.contains '\x00' then
      .error (.obstacle (.refused .embeddedNul first.1))
    else
      let home := expandTilde env first.1
      if home.toList.head? = some '~' then .error (.obstacle .unknownHome)
      else .ok ((Path.ofString home).join ⟨.relative, p.names.dropLast⟩)
  | _, _ => .ok p

def settingsDirectory (env : Bindings String) : String :=
  (env.get? "XDG_CONFIG_HOME").getD (expandTilde env "~/.config")

def defaultRoot (env : Bindings String) : Path :=
  (Path.ofString (settingsDirectory env)).join (Path.ofString "makemake")

def resolve (env : Bindings String) (override : Option String) : Except Failure Home :=
  match override, env.get? "MAKEMAKE_HOME" with
  | some "", some "" | some "", none | none, some "" | none, none => .ok ⟨defaultRoot env⟩
  | some "", some s | none, some s => (expandPath env (Path.ofString s)).map Home.mk
  | some s, _ => (expandPath env (Path.ofString s)).map Home.mk

end Home

end Scaffold
