import TransferBoard.Main
import TransferBoard.Verify.ScriptedPrompter
import TransferBoard.Proofs.Lists
import TransferBoard.Proofs.Board.Handles
import TransferBoard.Proofs.Board.Verified
import TransferBoard.Proofs.Copy.WholeCopy
import TransferBoard.Proofs.Copy.Reports
import TransferBoard.Proofs.Board.LateDigest
import TransferBoard.Proofs.Verify.Record
import TransferBoard.Proofs.Verify.FileTalk
import TransferBoard.Proofs.Verify.Course
import TransferBoard.Proofs.Verify.Conversation
import TransferBoard.Proofs.Verify.Outcome
import TransferBoard.Proofs.Copy.Foretold
import TransferBoard.Proofs.Copy.Remaining
import TransferBoard.Proofs.Copy.InTurn
import TransferBoard.Proofs.Copy.OnCourse
import TransferBoard.Proofs.Copy.Returns
import TransferBoard.Proofs.Copy.OneByOne
import TransferBoard.Proofs.Board.Flags
import TransferBoard.Proofs.Board.Waiting
import TransferBoard.Proofs.Board.Bytes
import TransferBoard.Proofs.Copy.Order
import TransferBoard.Proofs.Copy.Calls
import TransferBoard.Proofs.Copy.Refused
import TransferBoard.Proofs.Copy.Ending
import TransferBoard.Proofs.Board.Busy
import TransferBoard.Proofs.Copy.Entries
import TransferBoard.Proofs.Board.Completed
import TransferBoard.Proofs.Copy.Records
import TransferBoard.Proofs.Copy.Books
import TransferBoard.Proofs.Board.Frames
import TransferBoard.Proofs.Board.OnScreen
import TransferBoard.Proofs.Verify.Preserves
import TransferBoard.Proofs.Board.AfterSession
import TransferBoard.Proofs.Text.Trimmed
import TransferBoard.Proofs.Board.EntryVerdict
import TransferBoard.Proofs.Verify.FileParts
import TransferBoard.Proofs.Verify.TwoVerdicts
import TransferBoard.Proofs.Digest.OfBytes
import TransferBoard.Proofs.Digest.Retyped
import TransferBoard.Proofs.Copy.Verdict
import TransferBoard.Proofs.Verify.PrintedDigest
import TransferBoard.Proofs.Verify.Simulates
import TransferBoard.Proofs.Verify.KeyAnswers
import TransferBoard.Proofs.Board.Handover
import TransferBoard.Proofs.Board.KeyBook
import TransferBoard.Proofs.Board.Questioning
import TransferBoard.Proofs.Board.Alone
import TransferBoard.Proofs.Board.KeyUse
import TransferBoard.Proofs.Board.Behind
import TransferBoard.Proofs.Copy.Unseen
import TransferBoard.Proofs.Copy.TwoScreens
import TransferBoard.Proofs.Copy.CalledOff
import TransferBoard.Proofs.Disk.Directories
import TransferBoard.Proofs.Program.Schedule
import TransferBoard.Proofs.Program.ExitStatus
import TransferBoard.Proofs.Board.FreeSlots
import TransferBoard.Proofs.Screen.Rows
import TransferBoard.Proofs.Screen.Repaint
import TransferBoard.Proofs.Screen.Body
import TransferBoard.Proofs.Screen.Footer
import TransferBoard.Proofs.Board.Scrolling
import TransferBoard.Proofs.Verify.Consistent
import TransferBoard.Proofs.Screen.Badge
import TransferBoard.Proofs.Board.Pacing
import TransferBoard.Proofs.Copy.Duplicates
import TransferBoard.Proofs.CommandLine.Unambiguous
import TransferBoard.Proofs.Batch.ListEditor
import TransferBoard.Proofs.Terminal.LineReading
import TransferBoard.Proofs.Digest.ReadByRead
import TransferBoard.Proofs.Copy.HonestProgress
import TransferBoard.Proofs.Board.CompletionWait
