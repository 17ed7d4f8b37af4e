/-!
# Levels and their tasks

The room has two levels.  Each is finished by completing all of its required tasks.

* `Level` — the two levels, with their numbers and titles.
* `Level.requiredTasks` — the tasks that finish a level.
* `taskLabel` — what a player reads for a task.
-/

namespace EscapeRoom

namespace Task

/-- Pulling the image that the first level starts from. -/
def pull : String := "pull"

/-- Running the container that the first level asks for. -/
def run : String := "run"

/-- Reading the logs of any container. -/
def logs : String := "logs"

/-- Submitting a manifest that satisfies every rule. -/
def validManifest : String := "validManifest"

end Task

/-- What a player reads for a task; a task without a description reads as its own name. -/
def taskLabel (task : String) : String :=
  if task = Task.pull then "Pull nginx"
  else if task = Task.run then "Run container: web @ 8080:80"
  else if task = Task.logs then "Show logs: web"
  else if task = Task.validManifest then "Deployment manifest passes every check"
  else task

inductive Level
  /-- The simulated container terminal. -/
  | docker
  /-- The deployment manifest. -/
  | manifest
  deriving DecidableEq, Repr

namespace Level

/-- The levels in the order of play. -/
def all : List Level := [docker, manifest]

/-- The number by which a level is known outside. -/
def number : Level → UInt8
  | docker => 1
  | manifest => 2

def ofNumber? (n : UInt8) : Option Level := all.find? fun level => level.number == n

/-- What is reported for a number that no level has. -/
def unknownMessage (n : UInt8) : String := s!"unknown level {n}"

/-- The tasks that finish a level, in the order in which they are shown. -/
def requiredTasks : Level → List String
  | docker => [Task.pull, Task.run, Task.logs]
  | manifest => [Task.validManifest]

/-- The name of a level. -/
def title : Level → String
  | docker => "Level 1 (Docker)"
  | manifest => "Level 2 (Kubernetes manifest)"

@[simp] theorem ofNumber?_number (level : Level) : ofNumber? level.number = some level := by
  cases level <;> rfl

end Level

/-- One value for each level. -/
structure PerLevel (α : Type) where
  docker : α
  manifest : α
  deriving DecidableEq, Repr

namespace PerLevel

variable {α : Type}

/-- The value of a level. -/
def get (p : PerLevel α) : Level → α
  | .docker => p.docker
  | .manifest => p.manifest

/-- Replaces the value of a level. -/
def set (p : PerLevel α) (level : Level) (value : α) : PerLevel α :=
  match level with
  | .docker => { p with docker := value }
  | .manifest => { p with manifest := value }

@[simp] theorem get_set_self (p : PerLevel α) (level : Level) (value : α) :
    (p.set level value).get level = value := by cases level <;> rfl

theorem get_set (p : PerLevel α) (level other : Level) (value : α) :
    (p.set level value).get other = if other = level then value else p.get other := by
  cases level <;> cases other <;> rfl

end PerLevel

end EscapeRoom
