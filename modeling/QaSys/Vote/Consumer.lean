import QaSys.Vote.Ledger

/-! The loop of `consumer` in `qa-svc/src/core/user_vote.rs`, and what its acknowledgements say of
the votes in the tables. -/

namespace QaSys.UserVote

open Prog Ledger

/-- What `tokio::select!` goes on with: a change of the watched value, or that nobody can change it
any more, or what the stream of messages yields. -/
inductive Selected
  | changed (ok : Bool)
  | tryNext (res : Except String (Option Delivery))

/-- The loop ends with `true` where it is left, and with `false` where it waits for more. -/
def select (targetType : String) : List Selected → Svc Bool
  | [] => return false
  | .changed ok :: rest => if ok then select targetType rest else return true
  | .tryNext res :: rest => match res with
    | .error e => throw (.pulsar e)
    | .ok none => return true
    | .ok (some msg) => do
      onMessage targetType msg
      select targetType rest

/-- The messages that come before anything that ends the loop. -/
def heard : List Selected → List Delivery
  | .changed true :: rest => heard rest
  | .tryNext (.ok (some msg)) :: rest => msg :: heard rest
  | _ => []

def outcome : List Selected → Except Err Bool
  | [] => .ok false
  | .changed true :: rest => outcome rest
  | .changed false :: _ => .ok true
  | .tryNext (.error e) :: _ => .error (.pulsar e)
  | .tryNext (.ok none) :: _ => .ok true
  | .tryNext (.ok (some _)) :: rest => outcome rest

def counted (roll : Finset (Int × String)) (msg : Delivery) : Finset (Int × String) :=
  match msg.payload with
  | .ok data => fold roll data.action (data.targetId.toInt, data.createdBy)
  | .error _ => roll

/-- The name of the user reaches the table as it is. -/
def Delivery.Named (msg : Delivery) : Prop :=
  ∀ data, msg.payload = .ok data → Uncut 50 data.createdBy

variable {s s' : Store} {roll : Finset (Int × String)} {script : List Choice}

/-- What the loop has done to the votes, and how it ended: the votes are those of the acknowledged
messages, and of one more where its acknowledgement failed and ended the loop. -/
def Accounted (roll : Finset (Int × String)) (s : Store) (turns : List Selected)
    (r : Except Err Bool) (s' : Store) : Prop :=
  ∃ done last, (done ++ last).Sublist (heard turns) ∧
    s'.acked = s.acked ++ done.map Delivery.messageId ∧
    Sound s'.pg s'.seq ((done ++ last).foldl counted roll) ∧
    (last = [] ∧ r = outcome turns ∨ last.length = 1 ∧ ∃ e, r = .error (.pulsar e))

end QaSys.UserVote
