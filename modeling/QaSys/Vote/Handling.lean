import QaSys.Vote.Ledger

/-! What the handling of a vote leaves: all of it or nothing, and nothing the second time. -/

namespace QaSys.Handling

open UserVote Prog
open Ledger (handled)

def counted (action : String) (n : Int) : Int := if action = "up" then n + 1 else max (n - 1) 0

/-- Another handling of the message changes nothing, and has nothing to do. -/
def Settled (data : VoteMessage) (s : Store) : Prop :=
  ∀ script, (handled s data script).2.state.db = s.db ∧
    (¬ (turn script 0).Faulty → (handled s data script).1 = .ok false)

variable {s s' : Store} {script : List Choice} {t : Int} {u action : String} {id : UInt64}

end QaSys.Handling
