import Quoodle.Json.Number

-- What a Redis server does with commands on strings, hashes, lists and sets that do not expire.
namespace Redis

inductive Data where
  | str (s : String)
  | hash (fields : List (String × String))
  | list (xs : List String)
  | set (xs : Finset String)
  deriving DecidableEq

abbrev Store := String → Option Data

inductive Command where
  | set (key value : String) (nx xx : Bool)
  | get (key : String)
  | delete (keys : List String)
  | exist (keys : List String)
  | incr (key : String)
  | hset (key field value : String)
  | hget (key field : String)
  | hgetall (key : String)
  | hdel (key : String) (fields : List String)
  | lpush (key : String) (values : List String)
  | rpush (key : String) (values : List String)
  | lpop (key : String) (count : Option Int)
  | rpop (key : String) (count : Option Int)
  | lrange (key : String) (start stop : Int)
  | llen (key : String)
  | ltrim (key : String) (start stop : Int)
  | sadd (key : String) (members : List String)
  | srem (key : String) (members : List String)

inductive Reply where
  | nil
  | bool (b : Bool)
  | int (n : Int)
  | data (d : Data)
  | error
  deriving DecidableEq

def integer (t : String) : Option Int :=
  (Json.readInt t.toList).filter fun n =>
    Json.intText n = t.toList && decide (-2 ^ 63 ≤ n) && decide (n < 2 ^ 63)

def Data.isEmpty : Data → Bool
  | .str _ => false
  | .hash fs => fs.isEmpty
  | .list xs => xs.isEmpty
  | .set xs => xs = ∅

-- Containers are removed with the last of their elements.
def put (s : Store) (key : String) (d : Data) : Store :=
  Function.update s key (if d.isEmpty then none else some d)

-- Both ends are included, and negative indices count from the end.
def range (xs : List String) (start stop : Int) : List String :=
  let start := if start < 0 then max (xs.length + start) 0 else start
  let stop := if stop < 0 then xs.length + stop else min stop (xs.length - 1)
  if start > stop then [] else (xs.drop start.toNat).take (stop - start + 1).toNat

def pop (side : List String → List String) (s : Store) (key : String) (count : Option Int) :
    Store × Reply :=
  match s key, count with
  | none, none => (s, .nil)
  | none, some c => (s, if c < 0 then .error else .nil)
  | some (.list xs), none =>
    match side xs with
    | [] => (s, .nil)
    | x :: xs => (put s key (.list (side xs)), .data (.str x))
  | some (.list xs), some c =>
    if c < 0 then (s, .error)
    else
      (put s key (.list (side ((side xs).drop c.toNat))), .data (.list ((side xs).take c.toNat)))
  | some _, _ => (s, .error)

def exec (s : Store) : Command → Store × Reply
  | .set key value nx xx =>
    if nx && xx then (s, .error)
    else if nx && (s key).isSome || xx && (s key).isNone then (s, .bool false)
    else (Function.update s key (some (.str value)), .bool true)
  | .get key =>
    match s key with
    | none => (s, .nil)
    | some (.str v) => (s, .data (.str v))
    | some _ => (s, .error)
  | .delete [] => (s, .error)
  | .delete keys =>
    (fun k => if k ∈ keys then none else s k, .int (keys.toFinset.filter fun k => (s k).isSome).card)
  | .exist [] => (s, .error)
  | .exist keys => (s, .int (keys.countP fun k => (s k).isSome))
  | .incr key =>
    match s key with
    | none => (Function.update s key (some (.str "1")), .int 1)
    | some (.str t) =>
      match integer t with
      | none => (s, .error)
      | some n =>
        if n + 1 < 2 ^ 63 then
          (Function.update s key (some (.str (.ofList (Json.intText (n + 1))))), .int (n + 1))
        else (s, .error)
    | some _ => (s, .error)
  | .hset key field value =>
    match s key with
    | none => (put s key (.hash [(field, value)]), .int 1)
    | some (.hash fs) =>
      (put s key (.hash (Json.assign field value fs)), .int (if field ∈ Json.keys fs then 0 else 1))
    | some _ => (s, .error)
  | .hget key field =>
    match s key with
    | none => (s, .nil)
    | some (.hash fs) => (s, (fs.lookup field).elim .nil fun v => .data (.str v))
    | some _ => (s, .error)
  | .hgetall key =>
    match s key with
    | none => (s, .data (.hash []))
    | some (.hash fs) => (s, .data (.hash fs))
    | some _ => (s, .error)
  | .hdel _ [] => (s, .error)
  | .hdel key fields =>
    match s key with
    | none => (s, .int 0)
    | some (.hash fs) =>
      (put s key (.hash (fs.filter (·.1 ∉ fields))),
        .int (fields.toFinset.filter (· ∈ Json.keys fs)).card)
    | some _ => (s, .error)
  | .lpush _ [] => (s, .error)
  | .lpush key values =>
    match s key with
    | none => (put s key (.list values.reverse), .int values.length)
    | some (.list xs) => (put s key (.list (values.reverse ++ xs)), .int (values.length + xs.length))
    | some _ => (s, .error)
  | .rpush _ [] => (s, .error)
  | .rpush key values =>
    match s key with
    | none => (put s key (.list values), .int values.length)
    | some (.list xs) => (put s key (.list (xs ++ values)), .int (xs.length + values.length))
    | some _ => (s, .error)
  | .lpop key count => pop id s key count
  | .rpop key count => pop List.reverse s key count
  | .lrange key start stop =>
    match s key with
    | none => (s, .data (.list []))
    | some (.list xs) => (s, .data (.list (range xs start stop)))
    | some _ => (s, .error)
  | .llen key =>
    match s key with
    | none => (s, .int 0)
    | some (.list xs) => (s, .int xs.length)
    | some _ => (s, .error)
  | .ltrim key start stop =>
    match s key with
    | none => (s, .bool true)
    | some (.list xs) => (put s key (.list (range xs start stop)), .bool true)
    | some _ => (s, .error)
  | .sadd _ [] => (s, .error)
  | .sadd key members =>
    match s key with
    | none => (put s key (.set members.toFinset), .int members.toFinset.card)
    | some (.set xs) =>
      (put s key (.set (xs ∪ members.toFinset)), .int (members.toFinset \ xs).card)
    | some _ => (s, .error)
  | .srem _ [] => (s, .error)
  | .srem key members =>
    match s key with
    | none => (s, .int 0)
    | some (.set xs) =>
      (put s key (.set (xs \ members.toFinset)), .int (members.toFinset ∩ xs).card)
    | some _ => (s, .error)

def replies (step : Store → Command → Store × Reply) (s : Store) : List Command → List Reply
  | [] => []
  | c :: cs => (step s c).2 :: replies step (step s c).1 cs

-- Every command meets a condition in the state in which it is executed.
def meets (step : Store → Command → Store × Reply) (fits : Store → Command → Bool) (s : Store) :
    List Command → Bool
  | [] => true
  | c :: cs => fits s c && meets step fits (step s c).1 cs

theorem replies_eq {step step' : Store → Command → Store × Reply} {fits : Store → Command → Bool}
    (h : ∀ s c, fits s c → step s c = step' s c) {s : Store} {cs : List Command}
    (hm : meets step fits s cs) : replies step s cs = replies step' s cs := by
  induction cs generalizing s
  case nil => rfl
  case cons c cs hi =>
    rw [meets, Bool.and_eq_true] at hm
    rw [replies, replies, ← h s c hm.left, hi hm.right]

end Redis
