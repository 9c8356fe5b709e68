import QaSys.Concurrent.Turn
import QaSys.Concurrent.Atomic
import QaSys.Program.Progress
import QaSys.Program.Exchanges

/-! The whole service at work: any number of sessions, each busy with a call of the service, a
delivered vote or a transfer of read counts, that go on statement by statement in any order. -/

namespace QaSys.Concurrent

open UserVote Overlap Transaction Sessions Prog Runs

inductive Job
  | rpc (c : Rpc)
  | vote (msg : Delivery)
  | transfer (rounds : Nat) (targetType : String)

abbrev Machine (n : Nat) := Pool (Fin n) Call Call.Reply Err Unit Store

/-- A session that is free gets a job, one that has a job goes on, or its connection is lost and the
job with it. -/
inductive Event (n : Nat)
  | assign (i : Fin n) (job : Job)
  | call (i : Fin n) (ch : Choice)
  | lose (i : Fin n)
  | tick (seconds : Nat)

variable (svc : QaServiceImpl) {n : Nat}

def Job.prog : Job → Svc Unit
  | .rpc c => do let _ ← c.serve svc
  | .vote msg => onMessage "answer" msg
  | .transfer rounds targetType => Question.handler rounds targetType

def exec (i : Fin n) (ch : Choice) (c : Call) : Store → Option (Except Err c.Reply × Store) :=
  Store.exec i ch c

def next (m : Machine n) : Event n → Machine n
  | .assign i job => if (m.prog i).Finished then m.spawn i (job.prog svc) else m
  | .call i ch => m.step exec (i, ch)
  | .lose i => ⟨Function.update m.prog i (pure ()),
      { m.state with pg := m.state.pg.rollback i }⟩
  | .tick seconds => { m with state := { m.state with clock := m.state.clock + seconds } }

def start (n : Nat) (clock : Int) (supply : Nat → Uuid) : Machine n :=
  ⟨fun _ => pure (), .empty n clock supply⟩

def calling (m : Machine n) : Event n → Option Call
  | .call i _ => (m.prog i).calling
  | _ => none

def seen (m : Machine n) : Seen := ⟨m.state.db, m.state.seq⟩

/-- The rows are in order, and each session holds what its phase says. -/
structure Safe (s : Store) (phase : Fin n → Phase) : Prop where
  size : s.pg.size = n
  exclusive : s.pg.Exclusive journal
  books : Books s.pg.db s.seq
  holds : ∀ i : Fin n, Holds s.pg.db s.seq (phase i) (s.pg.log i)
  others : ∀ j, n ≤ j → s.pg.log j = none

def Sound (m : Machine n) : Prop :=
  ∃ phase : Fin n → Phase, Safe m.state phase ∧ ∀ i, Keeps (phase i) (m.prog i)

theorem keeps_job (job : Job) : Keeps .idle (job.prog svc) := by
  cases job with
  | rpc c =>
    exact Calm.keeps (((within_serve c).mono fun _ => Served.calm).bind fun _ => within_pure _)
  | vote msg => exact keeps_onMessage msg
  | transfer rounds targetType => exact Calm.keeps (calm_handler rounds targetType)

variable {svc} {s s' : Store} {phase : Fin n → Phase} {i : Fin n} {c : Call} {φ' : Phase}
  {m : Machine n}

theorem Safe.start {clock : Int} {supply : Nat → Uuid} :
    Safe (.empty n clock supply) fun _ : Fin n => .idle :=
  ⟨rfl, fun _ _ _ _ _ _ h => absurd h (not_locks_of_none rfl), .empty, fun _ => .idle,
    fun _ _ => rfl⟩

theorem Safe.moved (h : Safe s phase) (hsize : s'.pg.size = s.pg.size)
    (hexclusive : s'.pg.Exclusive journal) (hbooks : Books s'.pg.db s'.seq)
    (hseq : Drawn s.seq s'.seq) (hlog : ∀ j : Nat, j ≠ i → s'.pg.log j = s.pg.log j)
    (hrows : ∀ j < s.pg.size, j ≠ i → ∀ k, s.pg.Locks journal j k →
      rowsAt k s'.pg.db = rowsAt k s.pg.db)
    (hown : Holds s'.pg.db s'.seq φ' (s'.pg.log i)) : Safe s' (Function.update phase i φ') := by
  refine ⟨hsize.trans h.size, hexclusive, hbooks, fun j => ?_, fun j hj => ?_⟩
  · by_cases hji : j = i
    · subst hji
      rw [Function.update_self]
      exact hown
    · have hne : (j : Nat) ≠ i := fun heq => hji (Fin.ext heq)
      rw [Function.update_of_ne hji, hlog j hne]
      exact (h.holds j).frame hseq (hrows j (h.size ▸ j.isLt) hne)
  · rw [hlog j (by omega)]
    exact h.others j hj

theorem foldl_shows {ws : List Write} (h : s.pg.blocked journal i ws = false) {j : Nat}
    (hj : j < s.pg.size) (hji : j ≠ i) {k : RowKey} (hk : s.pg.Locks journal j k) :
    rowsAt k (ws.foldl Db.apply s.pg.db) = rowsAt k s.pg.db :=
  (shows_rowsAt k).foldl (fun _ hw => not_locks_of_free h hj hji hw hk) _

theorem Safe.turn (h : Safe s phase) (ht : Turn s i c (phase i) s' φ') :
    Safe s' (Function.update phase i φ') := by
  have hi : (i : Nat) < s.pg.size := h.size ▸ i.isLt
  have committed (hpg : s'.pg = s.pg.commit journal i) (hseq : s'.seq = s.seq)
      (hbooks : Books s'.pg.db s.seq) : Safe s' (Function.update phase i .idle) := by
    refine h.moved (by rw [hpg]; rfl) (h.exclusive.ended (by rw [hpg]; rfl) (by rw [hpg]; rfl))
      (hseq ▸ hbooks) (hseq ▸ .refl) (fun j hj => ?_) (fun j hj hji k hk => ?_) ?_
    · rw [hpg]
      exact Function.update_of_ne hj ..
    · rw [hpg]
      exact h.exclusive.commit_shows hi hj hji hk (shows_rowsAt k)
    · rw [hpg, commit_log_self]
      exact .idle
  generalize hφ : phase i = φ at ht
  cases ht with
  | aside hpg hseq =>
    have hown := (h.holds i).frame hseq (fun _ _ => rfl)
    refine h.moved (by rw [hpg]) (by rw [hpg]; exact h.exclusive) ?_ hseq (fun j _ => by rw [hpg])
      (fun j _ _ k _ => by rw [hpg]) (by rw [hpg, ← hφ]; exact hown)
    rw [hpg]
    exact h.books.drawn_on hseq
  | wrote hq heval hfree hpg hseq =>
    obtain ⟨he, hvotes⟩ := edit_of_eval h.books hq heval
    have hown := h.holds i
    rw [hφ] at hown
    refine h.moved (by rw [hpg]) (by rw [hpg]; exact h.exclusive) ?_ (hseq ▸ .draw _ _)
      (fun j _ => by rw [hpg]) (fun j hj hji k hk => ?_) ?_
    · rw [hpg, hseq]
      exact h.books.edit he hvotes
    · rw [hpg]
      exact foldl_shows hfree hj hji hk
    · rw [hpg, hown.idle_iff.mp rfl]
      exact .idle
  | begun hpg hseq =>
    refine h.moved (by rw [hpg]; rfl) (by rw [hpg]; exact h.exclusive.begun) ?_ (hseq ▸ .refl)
      (fun j hj => ?_) (fun j _ _ k _ => by rw [hpg]; rfl) ?_
    · rw [hpg, hseq]
      exact h.books
    · rw [hpg]
      exact Function.update_of_ne hj ..
    · rw [hpg, start_log_self]
      exact .begun
  | logged hlog hfree hpg hseq hown =>
    refine h.moved (by rw [hpg]) (by rw [hpg]; exact h.exclusive.append hlog hfree) ?_ hseq
      (fun j hj => ?_) (fun j _ _ k _ => by rw [hpg]) ?_
    · rw [hpg]
      exact h.books.drawn_on hseq
    · rw [hpg]
      exact Function.update_of_ne hj ..
    · rw [hpg]
      dsimp only
      rw [Function.update_self]
      exact hown
  | cast hp hone hpg hdb hseq =>
    refine committed hpg hseq ?_
    rw [hdb]
    exact h.books.castVote hp.vote (not_mem_of_filter_key hp.absent) hp.drawn hone
  | withdrew hd hone hpg hdb hseq =>
    refine committed hpg hseq ?_
    rw [hdb]
    exact h.books.cancelVote (mem_of_filter_key hd.present) (target_of_matches hd.vote) hone
  | ended hpg hseq =>
    refine h.moved (by rw [hpg]; rfl) (h.exclusive.ended (by rw [hpg]; rfl) (by rw [hpg]; rfl)) ?_
      (hseq ▸ .refl) (fun j hj => ?_) (fun j _ _ k _ => by rw [hpg]; rfl) ?_
    · rw [hpg, hseq]
      exact h.books
    · rw [hpg]
      exact Function.update_of_ne hj ..
    · rw [hpg, rollback_log_self]
      exact .idle

end QaSys.Concurrent
