import AchievementLang.Compilation
import AchievementLang.Document.Check
import AchievementLang.Json.Reader
import AchievementLang.Json.Writer

/-!
# Documents

A compilation written as JSON, and read back. A document holds triggers and definitions in wire
form; `Document.achievements` reads the triggers again.
-/

namespace AchievementLang

namespace Document

/-- An achievement in a document. -/
structure AchievementEntry where
  id : Int
  title : String
  description : String
  points : Int
  trigger : String
  sourceLine : Option Int
  deriving DecidableEq, Repr

/-- A leaderboard in a document. -/
structure LeaderboardEntry where
  title : String
  description : String
  start : String
  cancel : String
  submit : String
  value : String
  format : String
  definition : String
  sourceLine : Option Int
  deriving DecidableEq, Repr

end Document

open Document

/-- A compilation as it is written. -/
structure Document where
  title : Option String
  gameId : Option Int
  achievements : List AchievementEntry
  leaderboards : List LeaderboardEntry
  deriving DecidableEq, Repr

namespace Document

/-! ## From compilations -/

/-- The entry of an achievement. -/
def AchievementEntry.of (a : Achievement) : AchievementEntry where
  id := a.id
  title := a.title
  description := a.description
  points := a.points
  trigger := a.trigger.wire
  sourceLine := a.sourceLine

/-- The entry of a leaderboard. -/
def LeaderboardEntry.of (b : Leaderboard) : LeaderboardEntry where
  title := b.title
  description := b.description
  start := b.definition.start
  cancel := b.definition.cancel
  submit := b.definition.submit
  value := b.definition.value
  format := b.format.name
  definition := b.definition.wire
  sourceLine := b.sourceLine

/-- The document of a compilation. -/
def of (c : Compilation) : Document where
  title := c.title
  gameId := c.gameId
  achievements := c.achievements.map AchievementEntry.of
  leaderboards := c.leaderboards.map LeaderboardEntry.of

/-! ## Writing -/

/-- A value that may be missing. -/
def orNullJson {α : Type} (f : α → Json) : Option α → Json
  | some a => f a
  | none => .null

/-- The achievement as JSON. -/
def AchievementEntry.toJson (e : AchievementEntry) : Json :=
  .object
    [("id", .int e.id), ("title", .string e.title), ("description", .string e.description),
     ("points", .int e.points), ("trigger", .string e.trigger),
     ("source_line", orNullJson .int e.sourceLine)]

/-- The leaderboard as JSON. -/
def LeaderboardEntry.toJson (e : LeaderboardEntry) : Json :=
  .object
    [("title", .string e.title), ("description", .string e.description),
     ("start", .string e.start), ("cancel", .string e.cancel), ("submit", .string e.submit),
     ("value", .string e.value), ("format", .string e.format),
     ("definition", .string e.definition), ("source_line", orNullJson .int e.sourceLine)]

/-- The document as JSON. -/
def toJson (d : Document) : Json :=
  .object
    [("game_title", orNullJson .string d.title), ("game_id", orNullJson .int d.gameId),
     ("achievements", .array (d.achievements.map AchievementEntry.toJson)),
     ("leaderboards", .array (d.leaderboards.map LeaderboardEntry.toJson))]

/-- The text of a document. -/
def text (d : Document) : String := d.toJson.pretty

/-! ## Reading -/

/-- An achievement of a document. -/
def AchievementEntry.check : Check AchievementEntry := Check.object fun path j =>
  .app (.app (.app (.app (.app ((Check.optional Check.integer 0 path j "id").map
    AchievementEntry.mk)
    (Check.required Check.string path j "title"))
    (Check.required Check.string path j "description"))
    (Check.required Check.unsigned path j "points"))
    (Check.required Check.string path j "trigger"))
    (Check.optional Check.integer.orNull none path j "source_line")

/-- A leaderboard of a document. -/
def LeaderboardEntry.check : Check LeaderboardEntry := Check.object fun path j =>
  .app (.app (.app (.app (.app (.app (.app (.app
    ((Check.required Check.string path j "title").map LeaderboardEntry.mk)
    (Check.required Check.string path j "description"))
    (Check.required Check.string path j "start"))
    (Check.required Check.string path j "cancel"))
    (Check.required Check.string path j "submit"))
    (Check.required Check.string path j "value"))
    (Check.required Check.string path j "format"))
    (Check.required Check.string path j "definition"))
    (Check.optional Check.integer.orNull none path j "source_line")

/-- A document. -/
def check : Check Document := Check.object fun path j =>
  .app (.app (.app ((Check.optional Check.string.orNull none path j "game_title").map
    Document.mk)
    (Check.optional Check.integer.orNull none path j "game_id"))
    (Check.optional (Check.list AchievementEntry.check) [] path j "achievements"))
    (Check.optional (Check.list LeaderboardEntry.check) [] path j "leaderboards")

/-- The document that a text is. -/
def read (text : String) : Checked Document :=
  match Json.read? text with
  | some j => check [] j
  | none => .error [⟨[], .notJson⟩]

/-- The achievement that an entry describes. -/
def AchievementEntry.achievement (e : AchievementEntry) :
    Except Wire.ReadFailure Achievement :=
  (Wire.readTrigger e.trigger).map fun trigger =>
    { title := e.title, description := e.description, points := e.points, id := e.id,
      trigger := trigger, sourceLine := e.sourceLine }

/-- The achievements of a document; the first trigger that cannot be read fails. -/
def readAchievements (d : Document) : Except Wire.ReadFailure (List Achievement) :=
  d.achievements.mapM AchievementEntry.achievement

end Document

end AchievementLang
