import LiveScore.Watch.Reload

/-!
# Watching a folder

A session is a watch over a folder in which files are written, renamed and removed while time goes
by. What happens in the folder is heard of at once; as long as nothing does, the watch looks at the
time in regular intervals. What the watch tells is kept until it is asked for.
-/

namespace LiveScore

/-- Why a score cannot be watched. -/
inductive WatchError where
  /-- The path names no file. -/
  | noFileName (path : String)
  | noFolder (folder : String)
deriving DecidableEq

/-- The sentence that reports the error. -/
def WatchError.message : WatchError → String
  | noFileName path => "Not a file path: " ++ Text.quotedPath path
  | noFolder folder =>
    s!"Failed to watch path {Text.quotedPath folder}: No path was found. about "
      ++ s!"[{Text.quotedPath folder}]"

/-- Something that is done in a folder. -/
inductive FolderAction where
  | write (name : String) (bytes : ByteArray)
  | remove (name : String)
  | rename (source target : String)
  | rest

/-- A watch over a folder. -/
structure WatchSession where
  path : String
  parent : List String
  name : String
  watch : Watch
  folder : Folder
  now : Nat := 0
  /-- When the watch looks at the time if nothing happens before. -/
  nextLook : Nat
  told : List ScoreChange := []

namespace WatchSession

/-- The time in milliseconds after which the watcher looks again if nothing happens. -/
def interval : Nat := 20

/-- Starts watching a score. The file need not exist, but its folder must. -/
def start (folder : Folder) (path : String) (patience : Nat) : Except WatchError WatchSession := do
  let parts := Path.parts path
  let name ← match parts.getLast? with
    | none => throw (.noFileName path)
    | some name => if name = ".." then throw (.noFileName path) else pure name
  let missing := WatchError.noFolder ("/".intercalate parts.dropLast)
  match folder.resolve [] parts.dropLast with
  | .error _ => throw missing
  | .ok parent => match folder.entryAt? parent with
    | some .folder =>
      return { path, parent, name, watch := { patience }, folder, nextLook := interval }
    | _ => throw missing

/-- A round in which the watch hears of something. -/
def hear (session : WatchSession) (news : News) : WatchSession :=
  let round : WatchRound :=
    { news, time := session.now
      present := session.folder.contains session.path
      contents := session.folder.read session.path }
  let (watch, told) := session.watch.step round
  { session with
    watch, nextLook := session.now + interval, told := session.told ++ told.toList }

/-- What the watch hears of a change of a file, if the file lies in the watched folder. -/
def newsOf (session : WatchSession) (file : String) (change : FileChange) : List News :=
  match session.folder.resolve [] (Path.parts file) with
  | .error _ => []
  | .ok parts =>
    if parts.dropLast ≠ session.parent then []
    else if parts.getLast? = some session.name then [.score change]
    else [.otherFile]

/-- Does something in the folder; the watch hears of it. -/
def act (session : WatchSession) (action : FolderAction) : WatchSession :=
  let folder := session.folder
  let (folder, news) := match action with
    | .write name bytes =>
      let change := if folder.contains name then FileChange.modified else .created
      (folder.write name bytes, session.newsOf name change)
    | .remove name =>
      if folder.contains name then (folder.remove name, session.newsOf name .removed)
      else (folder, [])
    | .rename source target =>
      if folder.contains source then
        (folder.rename source target,
          session.newsOf source .modified ++ session.newsOf target .modified)
      else (folder, [])
    | .rest => (folder, [])
  news.foldl hear { session with folder }

/-- Takes what was told first. -/
def take? (session : WatchSession) : Option (ScoreChange × WatchSession) :=
  match session.told with
  | [] => none
  | told :: rest => some (told, { session with told := rest })

/-- Lets time go by until the watch tells something, up to a deadline. -/
def waitUntil (deadline : Nat) : Nat → WatchSession → Option ScoreChange × WatchSession
  | 0, session => (none, session)
  | count + 1, session =>
    match session.take? with
    | some (told, session) => (some told, session)
    | none =>
      if session.nextLook ≤ deadline then
        waitUntil deadline count ({ session with now := session.nextLook }.hear .quiet)
      else (none, { session with now := deadline })

/-- Lets a number of milliseconds go by, or fewer if the watch tells something before. -/
def wait (session : WatchSession) (milliseconds : Nat) : Option ScoreChange × WatchSession :=
  waitUntil (session.now + milliseconds) (milliseconds / interval + 3) session

end WatchSession

end LiveScore
