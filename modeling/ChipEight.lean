import ChipEight.Main
import ChipEight.Proofs.Bounds
import ChipEight.Proofs.RunLoop
import ChipEight.Proofs.Calls
import ChipEight.Proofs.Frames
import ChipEight.Proofs.RunFrames
import ChipEight.Proofs.Halted
import ChipEight.Proofs.Footprint
import ChipEight.Proofs.Stores
import ChipEight.Proofs.Listing
import ChipEight.Proofs.RunEvents
import ChipEight.Proofs.Timers
import ChipEight.Proofs.Randomness
import ChipEight.Proofs.RunSplit
import ChipEight.Proofs.Unread
import ChipEight.Proofs.Countdown
import ChipEight.Proofs.Command
import ChipEight.Proofs.Overlay
import ChipEight.Proofs.FlagArithmetic
import ChipEight.Proofs.Successor
import ChipEight.Proofs.RegisterBlocks
import ChipEight.Proofs.Refusals
import ChipEight.Proofs.Grid
import ChipEight.Proofs.FrameStream
import ChipEight.Proofs.AssemblyText
import ChipEight.Proofs.ListingText
import ChipEight.Proofs.Waiting
import ChipEight.Proofs.TimerRate
import ChipEight.Proofs.Loading
import ChipEight.Proofs.HeldKeys
import ChipEight.Proofs.Printing
import ChipEight.Proofs.Arguments
