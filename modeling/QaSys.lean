import QaSys.Program.Runs
import QaSys.Program.Threads
import QaSys.Service.UserVote
import QaSys.Service.Question
import QaSys.Store.CallLaws
import QaSys.Vote.Ledger
import QaSys.Reads.Conservation
import QaSys.Reads.Isolation
import QaSys.Reads.Retry
import QaSys.Reads.Display
import QaSys.Listing.QuestionWalk
import QaSys.Listing.AnswerWalk
import QaSys.Listing.PageWalk
import QaSys.Vote.Overlap
import QaSys.Vote.Delivery
import QaSys.Vote.Reply
import QaSys.Auth.Revocation
import QaSys.Auth.SingleLogin
import QaSys.Content.Replies
import QaSys.Content.Integrity
import QaSys.Content.Timestamps
import QaSys.Gateway.Identity
import QaSys.Gateway.Bounds
import QaSys.Gateway.Ownership
import QaSys.Gateway.Admission
import QaSys.Vote.Handling
import QaSys.Vote.Acceptance
import QaSys.Content.Outcomes
import QaSys.Listing.LastPage
import QaSys.Data.Select
import QaSys.Vote.Lookup
import QaSys.Vote.Batch
import QaSys.Listing.ReadBack
import QaSys.Reads.Exactness
import QaSys.Auth.Registration
import QaSys.Gateway.ContentType
import QaSys.Gateway.Columns
import QaSys.Program.Progress
import QaSys.Concurrent.Liveness
import QaSys.Concurrent.Deployed
import QaSys.Gateway.Relay
import QaSys.Vote.Publishing
import QaSys.Content.Attribution
import QaSys.Gateway.Provenance
import QaSys.Vote.Consumer
import QaSys.Program.Yields
import QaSys.Content.Shown
import QaSys.Service.Answering
import QaSys.Gateway.Authorship
import QaSys.Program.Refinement
import QaSys.Auth.Authority
import QaSys.Auth.Refinement
import QaSys.Auth.History
import QaSys.Concurrent.Users
