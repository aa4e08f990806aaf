import Undelete.Main
import Undelete.Proofs.Chain.Bounded
import Undelete.Proofs.Chain.Scoring
import Undelete.Proofs.Chain.Tally
import Undelete.Proofs.Directory.Damaged
import Undelete.Proofs.Directory.LiveSlots
import Undelete.Proofs.Directory.Piles
import Undelete.Proofs.Directory.WellFormed
import Undelete.Proofs.Host.DriveNames
import Undelete.Proofs.Partition.GptListing
import Undelete.Proofs.Partition.MbrTable
import Undelete.Proofs.Recovery.Accepted
import Undelete.Proofs.Recovery.Agreement
import Undelete.Proofs.Recovery.Apart
import Undelete.Proofs.Recovery.Calls
import Undelete.Proofs.Recovery.Chunks
import Undelete.Proofs.Recovery.Confined
import Undelete.Proofs.Recovery.Deliveries
import Undelete.Proofs.Recovery.Directories
import Undelete.Proofs.Recovery.Exclusive
import Undelete.Proofs.Recovery.Filters
import Undelete.Proofs.Recovery.Folder
import Undelete.Proofs.Recovery.Forecast
import Undelete.Proofs.Recovery.Intact
import Undelete.Proofs.Recovery.LeftOut
import Undelete.Proofs.Recovery.LiveData
import Undelete.Proofs.Recovery.Obstacles
import Undelete.Proofs.Recovery.Protocol
import Undelete.Proofs.Recovery.Skipped
import Undelete.Proofs.Recovery.Stored
import Undelete.Proofs.Volume.Addressing
import Undelete.Proofs.Volume.Calls
import Undelete.Proofs.Volume.Reads
