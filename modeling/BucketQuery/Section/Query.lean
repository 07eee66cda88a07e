import BucketQuery.Calendar.Instant
import BucketQuery.Filter.Tree
import BucketQuery.Granularity

/-!
The query of a dashboard section: the bucket size, an optional range of dates, the queues and
channels it is restricted to, the columns shown, a grouping key, and a filter of the user's making,
which is a tree or, where allowed, condition text. -/
namespace BucketQuery.Section

/-- An empty list restricts nothing. -/
structure Dimensions where
  queues : List String := []
  channels : List String := []
deriving DecidableEq, Repr

/-- The columns that are restricted, each with the values it may take. -/
def Dimensions.restrictions (d : Dimensions) : List (String × List String) :=
  [("queue", d.queues), ("channel", d.channels)].filter fun r => !r.2.isEmpty

inductive Advanced where
  | text (condition : String)
  | tree (t : Filter.Tree)
deriving DecidableEq, Repr

structure Query where
  timeInterval : Option String := none
  startDate : Option Calendar.Instant := none
  endDate : Option Calendar.Instant := none
  dimensions : Dimensions := {}
  groupBy : Option String := none
  advanced : Option Advanced := none
  columns : List String := ["*"]
deriving DecidableEq, Repr

namespace Query

def new (g : Granularity) : Query := {timeInterval := some g.text}

def withDates (q : Query) (start finish : Option Calendar.Instant) : Query :=
  {q with startDate := start, endDate := finish}

def withQueues (q : Query) (queues : List String) : Query :=
  {q with dimensions := {q.dimensions with queues}}

def withChannels (q : Query) (channels : List String) : Query :=
  {q with dimensions := {q.dimensions with channels}}

def withTree (q : Query) (t : Filter.Tree) : Query := {q with advanced := some (.tree t)}

def withText (q : Query) (condition : String) : Query := {q with advanced := some (.text condition)}

def withGroupBy (q : Query) (field : String) : Query := {q with groupBy := some field}

def withColumns (q : Query) (columns : List String) : Query := {q with columns}

/-- The start lies after the end. -/
def inverted (q : Query) : Bool :=
  match q.startDate, q.endDate with
  | some s, some e => decide (e.Before s)
  | _, _ => false

end Query

/-- A stored section: a query under a name. -/
structure Definition where
  name : String
  title : Option String
  description : Option String
  query : Query
deriving DecidableEq, Repr

end BucketQuery.Section
